import FabricXSdk.State.Reads

/-!
# Replays and disagreements

A block that was applied once can come again at any time: each of its rows meets
its own content, and the progress of the channel has passed its number. A block
whose rows disagree, with a stored row or among each other, is refused with an
error that names the first such row, unless its number cannot be stored: then the
driver refuses the number before any row is compared.
-/

namespace FabricXSdk.State

open Golang Blocks Atomic VersionLog

/-- Two rows share the primary key. -/
def SameKey (x r : Row) : Prop :=
  rowSchema.key x = rowSchema.key r ∧ rowSchema.stamp x = rowSchema.stamp r

instance (x r : Row) : Decidable (SameKey x r) := inferInstanceAs (Decidable (_ ∧ _))

/-- The primary key of the table: no two rows share it. -/
def PrimaryKey (rows : List Row) : Prop := rows.Pairwise fun x y => ¬ SameKey x y

/-- Some row meets, at its primary key, a stored row or an earlier one of the list
with another value, delete flag or transaction id. -/
def Disagrees (rows rs : List Row) : Prop :=
  ∃ pre r post, rs = pre ++ r :: post ∧ ∃ x ∈ rows ++ pre, SameKey x r ∧ ¬ SameContent x r

/-- The tables after a call of `UpdateWorldState`: an error rolls back. -/
def tablesAfter (channel : GoString) (driver : Driver Text) (db : Database) (b : Block) :
    Database :=
  match updateWorldState channel driver db b with
  | .ok db' => db'
  | .error _ => db

/-- The databases that accepted blocks lead to, with the channel and the block of
each update. -/
inductive Reached : Database → List (GoString × Block) → Prop
  | empty : Reached Database.empty []
  | update {db db' log channel driver b} (run : Reached db log)
      (h : updateWorldState channel driver db b = .ok db') : Reached db' (log ++ [(channel, b)])

section Keys

theorem SameKey.symm {x r : Row} (h : SameKey x r) : SameKey r x := ⟨h.1.symm, h.2.symm⟩

theorem SameKey.trans {x y z : Row} (h : SameKey x y) (h' : SameKey y z) : SameKey x z :=
  ⟨h.1.trans h'.1, h.2.trans h'.2⟩

variable {rows rs : List Row} {r x : Row}

/-- With a primary key, the row found for a key is the row with that key. -/
theorem PrimaryKey.selectIn_eq_some_iff (h : PrimaryKey rows) :
    selectIn rows r = some x ↔ x ∈ rows ∧ SameKey x r := by
  constructor
  · intro hx
    obtain ⟨hmem, hstamp⟩ := selectIn_eq_some hx
    obtain ⟨hmem, hkey⟩ := (mem_ofKey rowSchema).mp hmem
    exact ⟨hmem, hkey, hstamp⟩
  · rintro ⟨hmem, hsame⟩
    cases hsel : selectIn rows r with
    | none =>
        have hfree := selectIn_eq_none.mp hsel x ((mem_ofKey rowSchema).mpr ⟨hmem, hsame.1⟩)
        exact absurd hsame.2 hfree
    | some y =>
        obtain ⟨hy, hystamp⟩ := selectIn_eq_some hsel
        obtain ⟨hy, hykey⟩ := (mem_ofKey rowSchema).mp hy
        -- two rows at one key are one row
        by_contra hne
        have hxy : x ≠ y := fun heq => hne (by rw [heq])
        have hsymm : Std.Symm fun a b : Row => ¬ SameKey a b := ⟨fun a b hab hba => hab hba.symm⟩
        exact List.Pairwise.forall h hmem hy hxy (hsame.trans (SameKey.symm ⟨hykey, hystamp⟩))

theorem PrimaryKey.insert (h : PrimaryKey rows) (r : Row) :
    PrimaryKey (insert rowSchema rows r) := by
  rcases insert_taken_or_fresh rowSchema rows r with ht | hf
  · rwa [insert_taken rowSchema ht]
  · rw [insert_fresh rowSchema hf]
    refine List.pairwise_append.mpr ⟨h, List.pairwise_singleton _ _, ?_⟩
    intro x hx y hy hsame
    rw [List.mem_singleton.mp hy] at hsame
    exact hf x ((mem_ofKey rowSchema).mpr ⟨hx, hsame.1⟩) hsame.2

theorem PrimaryKey.insertAll (h : PrimaryKey rows) (rs : List Row) :
    PrimaryKey (insertAll rowSchema rows rs) := by
  induction rs generalizing rows with
  | nil => exact h
  | cons r rs ih => exact ih (h.insert r)

theorem Reached.primaryKey {db : Database} {log : List (GoString × Block)}
    (run : Reached db log) : PrimaryKey db.worldstate := by
  induction run with
  | empty => exact List.Pairwise.nil
  | update _ h ih =>
      obtain ⟨_, _, rfl⟩ := updateWorldState_ok h
      rw [applied_worldstate]
      exact ih.insertAll _

end Keys

section Disagreement

variable {rows rs : List Row} {r : Row}

theorem disagrees_cons :
    Disagrees rows (r :: rs) ↔ (∃ x ∈ rows, SameKey x r ∧ ¬ SameContent x r) ∨
      ∃ pre r' post, rs = pre ++ r' :: post ∧
        ∃ x ∈ rows ++ r :: pre, SameKey x r' ∧ ¬ SameContent x r' := by
  constructor
  · rintro ⟨pre, r', post, heq, x, hx, hkey, hne⟩
    cases pre with
    | nil =>
        obtain ⟨rfl, _⟩ := List.cons.inj heq
        rw [List.append_nil] at hx
        exact Or.inl ⟨x, hx, hkey, hne⟩
    | cons _ pre =>
        obtain ⟨rfl, hrs⟩ := List.cons.inj heq
        exact Or.inr ⟨pre, r', post, hrs, x, hx, hkey, hne⟩
  · rintro (⟨x, hx, hkey, hne⟩ | ⟨pre, r', post, rfl, hx⟩)
    · exact ⟨[], r, rs, rfl, x, by simpa using hx, hkey, hne⟩
    · exact ⟨r :: pre, r', post, rfl, hx⟩

/-- Where a row agrees with what is stored, the table after its insert stands for
the table and the row. -/
theorem exists_mem_insert_iff (hagree : ∀ x ∈ rows, SameKey x r → SameContent x r)
    (pre : List Row) (r' : Row) :
    (∃ x ∈ insert rowSchema rows r ++ pre, SameKey x r' ∧ ¬ SameContent x r') ↔
      ∃ x ∈ rows ++ r :: pre, SameKey x r' ∧ ¬ SameContent x r' := by
  simp only [List.mem_append, List.mem_cons, or_and_right, exists_or, exists_eq_left]
  rcases insert_taken_or_fresh rowSchema rows r with ht | hf
  · rw [insert_taken rowSchema ht]
    obtain ⟨y, hy, hstamp⟩ := ht
    obtain ⟨hy, hkey⟩ := (mem_ofKey rowSchema).mp hy
    have hsame : SameKey y r := ⟨hkey, hstamp⟩
    obtain ⟨hvalue, hdelete, hid⟩ := hagree y hy hsame
    constructor
    · rintro (h | h)
      · exact Or.inl h
      · exact Or.inr (Or.inr h)
    · rintro (h | h | h)
      · exact Or.inl h
      · refine Or.inl ⟨y, hy, hsame.trans h.1, ?_⟩
        rw [SameContent, hvalue, hdelete, hid]
        exact h.2
      · exact Or.inr h
  · rw [insert_fresh rowSchema hf]
    have hrow : (∃ x ∈ [rowSchema.withVersion (nextVersion rowSchema (rowSchema.key r) rows) r],
        SameKey x r' ∧ ¬ SameContent x r') ↔ SameKey r r' ∧ ¬ SameContent r r' := by
      simp only [List.mem_singleton, exists_eq_left]
      rfl
    simp only [List.mem_append, or_and_right, exists_or, hrow, or_assoc]

/-- Each row in turn agrees, exactly if none disagrees with the table or with the
rows before it. -/
theorem agrees_iff (h : PrimaryKey rows) : Agrees rows rs ↔ ¬ Disagrees rows rs := by
  induction rs generalizing rows with
  | nil => simp [Agrees, Disagrees]
  | cons r rs ih =>
      have hhead : (∀ x, selectIn rows r = some x → SameContent x r) ↔
          ∀ x ∈ rows, SameKey x r → SameContent x r := by
        simp only [h.selectIn_eq_some_iff, and_imp]
      rw [Agrees, disagrees_cons, ih (h.insert r), not_or, hhead]
      have hfirst : (¬ ∃ x ∈ rows, SameKey x r ∧ ¬ SameContent x r) ↔
          ∀ x ∈ rows, SameKey x r → SameContent x r := by
        simp only [not_exists, not_and, not_not]
      rw [hfirst]
      apply and_congr_right
      intro hagree
      unfold Disagrees
      simp only [exists_mem_insert_iff hagree]

end Disagreement

section Replay

variable {channel : GoString} {db : Database} {b : Block}

/-- The block has been applied: its rows are stored with their content, and the
progress of the channel has passed its number. -/
structure Settled (channel : GoString) (db : Database) (b : Block) : Prop where
  number : b.number < 2 ^ 63
  rows : ∀ r ∈ blockRows channel b, ∃ x, selectIn db.worldstate r = some x ∧ SameContent x r
  progress : ∃ last, db.channelProgress.lookup channel = some last ∧ b.number ≤ last

theorem settled_of_update {driver : Driver Text} {db' : Database}
    (h : updateWorldState channel driver db b = .ok db') : Settled channel db' b := by
  obtain ⟨hnumber, hagrees, rfl⟩ := updateWorldState_ok h
  refine ⟨hnumber, ?_, ?_⟩
  · intro r hr
    rw [applied_worldstate]
    exact selectIn_of_agrees hagrees hr
  · refine ⟨_, applied_progress channel db b, ?_⟩
    cases db.channelProgress.lookup channel with
    | none => exact le_refl b.number
    | some last => exact le_max_right last b.number

/-- What is settled stays settled, whatever is applied to whatever channel. -/
theorem Settled.update (hs : Settled channel db b) {channel' : GoString} {driver : Driver Text}
    {b' : Block} {db' : Database} (h : updateWorldState channel' driver db b' = .ok db') :
    Settled channel db' b := by
  obtain ⟨_, _, rfl⟩ := updateWorldState_ok h
  refine ⟨hs.number, ?_, ?_⟩
  · intro r hr
    obtain ⟨x, hx, hsame⟩ := hs.rows r hr
    rw [applied_worldstate]
    exact ⟨x, selectIn_insertAll_of_some hx, hsame⟩
  · obtain ⟨last, hlast, hle⟩ := hs.progress
    by_cases hc : channel' = channel
    · subst hc
      refine ⟨_, applied_progress channel' db b', ?_⟩
      rw [hlast]
      exact hle.trans (le_max_left last b'.number)
    · exact ⟨last, (applied_progress_ne db b' hc).trans hlast, hle⟩

/-- Rows that are stored with their content agree. -/
theorem agrees_of_stored {rows rs : List Row}
    (h : ∀ r ∈ rs, ∃ x, selectIn rows r = some x ∧ SameContent x r) : Agrees rows rs := by
  induction rs with
  | nil => trivial
  | cons r rs ih =>
      obtain ⟨⟨x, hx, hsame⟩, hrs⟩ := List.forall_mem_cons.mp h
      refine ⟨?_, ?_⟩
      · intro y hy
        rw [hx] at hy
        cases hy
        exact hsame
      · rw [insert_taken rowSchema ⟨x, selectIn_eq_some hx⟩]
        exact ih hrs

theorem Settled.applied_eq (hs : Settled channel db b) : applied channel db b = db := by
  obtain ⟨last, hlast, hle⟩ := hs.progress
  have htaken : ∀ r ∈ blockRows channel b, ∃ x ∈ ofKey rowSchema (rowSchema.key r) db.worldstate,
      rowSchema.stamp x = rowSchema.stamp r := by
    intro r hr
    obtain ⟨x, hx, _⟩ := hs.rows r hr
    exact ⟨x, selectIn_eq_some hx⟩
  unfold applied
  rw [insertAll_taken rowSchema htaken]
  exact upsertProgress_of_le hlast hle

theorem Settled.replay (hs : Settled channel db b) : updateWorldState channel [] db b = .ok db :=
  updateWorldState_free_iff.mpr ⟨hs.number, agrees_of_stored hs.rows, hs.applied_eq.symm⟩

/-- Every block of the log is settled. -/
theorem Reached.settled {log : List (GoString × Block)} (run : Reached db log)
    (hb : (channel, b) ∈ log) : Settled channel db b := by
  induction run with
  | empty => cases hb
  | update _ h ih =>
      rcases List.mem_append.mp hb with hb | hb
      · exact (ih hb).update h
      · cases List.mem_singleton.mp hb
        exact settled_of_update h

end Replay

section Refusal

variable {channel : GoString} {db : Database} {b : Block}

/-- A conflict error is none of the wrapped errors of the driver. -/
theorem conflictErr_ne_wrapErr (x r : Row) {what : String}
    (h : what ≠ "conflicting write at channel=") (err : Text) :
    conflictErr x r ≠ wrapErr what err := by
  intro heq
  have hhead := (List.cons.inj heq).1
  exact h (Piece.lit.inj hhead).symm

theorem call_ne_conflict (x r : Row) {what : String} (h : what ≠ "conflicting write at channel=")
    (c : Driver Text × Database) :
    (call (wrapErr what) : SqlM Unit) c ≠ .error (conflictErr x r) := by
  intro herr
  obtain ⟨err, herr⟩ := exists_of_call_eq_error herr
  exact conflictErr_ne_wrapErr x r h err herr

theorem bindUint64_ne_conflict (x r : Row) {what : String}
    (h : what ≠ "conflicting write at channel=") (arg n : ℕ) (c : Driver Text × Database) :
    bindUint64 what arg n c ≠ .error (conflictErr x r) := by
  unfold bindUint64
  split
  · intro herr
    exact conflictErr_ne_wrapErr x r h _ (Except.error.inj herr).symm
  · intro herr
    cases herr

theorem updateProgress_ne_conflict (x r : Row) (n : ℕ) (c : Driver Text × Database) :
    updateProgress channel n c ≠ .error (conflictErr x r) := by
  intro h
  rcases (bind_eq_error.mp h).resolve_left (bindUint64_ne_conflict x r (by decide) _ _ _) with
    ⟨⟨⟩, c₁, _, hcall⟩
  rcases (bind_eq_error.mp hcall).resolve_left (call_ne_conflict x r (by decide) _) with
    ⟨⟨⟩, c₂, _, hread⟩
  rcases (bind_eq_error.mp hread).resolve_left (by intro h; cases h) with ⟨db, c₃, _, hwrite⟩
  rcases (bind_eq_error.mp hwrite).resolve_left (by intro h; cases h) with ⟨⟨⟩, c₄, _, hcommit⟩
  exact call_ne_conflict x r (by decide) _ hcommit

/-- A conflict in the check comes from the stored row. -/
theorem checkConflicting_conflict {db₀ : Database} {c : Driver Text × Database} {r x r' : Row}
    (h : checkConflicting db₀ r c = .error (conflictErr x r')) :
    ∃ y, selectIn db₀.worldstate r = some y ∧ ¬ SameContent y r := by
  rcases (bind_eq_error.mp h).resolve_left (call_ne_conflict x r' (by decide) _) with
    ⟨⟨⟩, c₁, _, hcheck⟩
  cases hsel : db₀.select r with
  | none =>
      simp only [hsel, fail_run] at hcheck
      exact absurd (Except.error.inj hcheck).symm (conflictErr_ne_wrapErr x r' (by decide) _)
  | some y =>
      refine ⟨y, hsel, ?_⟩
      intro hsame
      simp only [hsel, if_pos hsame] at hcheck
      cases hcheck

/-- A conflict error comes from the comparison of a row with the stored one. -/
theorem execWrite_conflict {driver : Driver Text} {r x r' : Row}
    (h : execWrite r (driver, db) = .error (conflictErr x r')) :
    r.versionBlock < 2 ^ 63 ∧ ∃ y, selectIn db.worldstate r = some y ∧ ¬ SameContent y r := by
  have hnumber : r.versionBlock < 2 ^ 63 := by
    by_contra hge
    rw [execWrite, bindUint64, if_pos (Nat.le_of_not_lt hge)] at h
    exact conflictErr_ne_wrapErr x r' (by decide) _ (Except.error.inj h).symm
  refine ⟨hnumber, ?_⟩
  rw [execWrite, bindUint64, if_neg (Nat.not_le.mpr hnumber), pure_bind] at h
  -- no driver call reports a conflict, so the row came as far as the check
  rcases (bind_eq_error.mp h).resolve_left (call_ne_conflict x r' (by decide) _) with
    ⟨⟨⟩, ⟨d₁, db₁⟩, h₁, hrest⟩
  obtain rfl : db₁ = db := state_of_call_eq_ok h₁
  rcases (bind_eq_error.mp hrest).resolve_left (by intro h; cases h) with ⟨db₂, c₂, h₂, hwrite⟩
  cases h₂
  rcases (bind_eq_error.mp hwrite).resolve_left (by intro h; cases h) with ⟨⟨⟩, c₃, _, haffected⟩
  rcases (bind_eq_error.mp haffected).resolve_left (call_ne_conflict x r' (by decide) _) with
    ⟨⟨⟩, c₄, _, hcheck⟩
  change (if 0 < (db₁.insert r).2 then pure ()
    else checkConflicting (db₁.insert r).1 r : SqlM Unit) c₄ = _ at hcheck
  by_cases hfree : 0 < (db₁.insert r).2
  · rw [if_pos hfree] at hcheck
    cases hcheck
  · rw [if_neg hfree] at hcheck
    rw [affected_pos_iff] at hfree
    obtain ⟨z, hz⟩ := Option.ne_none_iff_exists'.mp hfree
    have hdb : (db₁.insert r).1 = db₁ := by
      simp [Database.insert, insert_taken rowSchema ⟨z, selectIn_eq_some hz⟩]
    rw [hdb] at hcheck
    exact checkConflicting_conflict hcheck

/-- Rows that run into a conflict do not agree, and their number can be stored. -/
theorem execWrites_conflict {rs : List Row} {driver : Driver Text} {x r' : Row}
    (h : (forM rs execWrite : SqlM Unit) (driver, db) = .error (conflictErr x r')) :
    (∃ r ∈ rs, r.versionBlock < 2 ^ 63) ∧ ¬ Agrees db.worldstate rs := by
  induction rs generalizing driver db with
  | nil => cases h
  | cons r rs ih =>
      rw [List.forM_cons] at h
      rcases bind_eq_error.mp h with h | ⟨⟨⟩, ⟨d, db₁⟩, h₁, h⟩
      · obtain ⟨hnumber, y, hy, hne⟩ := execWrite_conflict h
        exact ⟨⟨r, List.mem_cons_self, hnumber⟩, fun hagrees => hne (hagrees.1 y hy)⟩
      · obtain ⟨hnumber, _, rfl⟩ := execWrite_free_iff.mp (steady_execWrite r _ _ _ _ _ h₁)
        exact ⟨⟨r, List.mem_cons_self, hnumber⟩, fun hagrees => (ih h).2 hagrees.2⟩

/-- Rows that do not agree run into a conflict, if their number can be stored. -/
theorem execWrites_of_not_agrees {rs : List Row} (hn : ∀ r ∈ rs, r.versionBlock < 2 ^ 63)
    (h : ¬ Agrees db.worldstate rs) :
    ∃ x r, (forM rs execWrite : SqlM Unit) ([], db) = .error (conflictErr x r) := by
  induction rs generalizing db with
  | nil => exact absurd trivial h
  | cons r rs ih =>
      obtain ⟨hr, hrs⟩ := List.forall_mem_cons.mp hn
      by_cases hhead : ∀ x, selectIn db.worldstate r = some x → SameContent x r
      · have hrest : ¬ Agrees (insert rowSchema db.worldstate r) rs := fun hag => h ⟨hhead, hag⟩
        have hok := execWrite_free_iff.mpr ⟨hr, hhead, rfl⟩
        obtain ⟨x, r', herr⟩ :=
          @ih { db with worldstate := insert rowSchema db.worldstate r } hrs hrest
        refine ⟨x, r', ?_⟩
        rw [List.forM_cons]
        exact bind_eq_error.mpr (Or.inr ⟨(), _, hok, herr⟩)
      · push Not at hhead
        obtain ⟨x, hx, hne⟩ := hhead
        refine ⟨x, r, ?_⟩
        rw [List.forM_cons]
        refine bind_eq_error.mpr (Or.inl ?_)
        rw [execWrite_taken hr hx, if_neg hne]

/-- The rows of a block are written one after the other, before anything else that
can report a conflict. -/
theorem updateWorldState_conflict {driver : Driver Text} {x r : Row}
    (h : updateWorldState channel driver db b = .error (conflictErr x r)) :
    b.number < 2 ^ 63 ∧ ¬ Agrees db.worldstate (blockRows channel b) := by
  rw [updateWorldState, commit_eq_error, updateStatements_eq] at h
  rcases (bind_eq_error.mp h).resolve_left (call_ne_conflict x r (by decide) _) with
    ⟨⟨⟩, ⟨d₁, db₁⟩, h₁, hprepare⟩
  obtain rfl : db₁ = db := state_of_call_eq_ok h₁
  rcases (bind_eq_error.mp hprepare).resolve_left (call_ne_conflict x r (by decide) _) with
    ⟨⟨⟩, ⟨d₂, db₂⟩, h₂, hcheck⟩
  obtain rfl : db₂ = db₁ := state_of_call_eq_ok h₂
  rcases (bind_eq_error.mp hcheck).resolve_left (call_ne_conflict x r (by decide) _) with
    ⟨⟨⟩, ⟨d₃, db₃⟩, h₃, hrows⟩
  obtain rfl : db₃ = db₂ := state_of_call_eq_ok h₃
  rcases bind_eq_error.mp hrows with hwrites | ⟨⟨⟩, c₄, _, hprogress⟩
  · obtain ⟨⟨r', hr', hnumber⟩, hagrees⟩ := execWrites_conflict hwrites
    rw [(channel_of_mem_blockRows hr').2] at hnumber
    exact ⟨hnumber, hagrees⟩
  · exact absurd hprogress (updateProgress_ne_conflict x r b.number c₄)

theorem updateWorldState_of_not_agrees (hn : b.number < 2 ^ 63)
    (h : ¬ Agrees db.worldstate (blockRows channel b)) :
    ∃ x r, updateWorldState channel [] db b = .error (conflictErr x r) := by
  have hrows : ∀ r ∈ blockRows channel b, r.versionBlock < 2 ^ 63 := by
    intro r hr
    rw [(channel_of_mem_blockRows hr).2]
    exact hn
  obtain ⟨x, r, herr⟩ := execWrites_of_not_agrees hrows h
  refine ⟨x, r, ?_⟩
  rw [updateWorldState, commit_eq_error, updateStatements_eq]
  refine bind_eq_error.mpr (Or.inr ⟨(), ([], db), rfl, ?_⟩)
  refine bind_eq_error.mpr (Or.inr ⟨(), ([], db), rfl, ?_⟩)
  refine bind_eq_error.mpr (Or.inr ⟨(), ([], db), rfl, ?_⟩)
  exact bind_eq_error.mpr (Or.inl herr)

theorem tablesAfter_of_error {driver : Driver Text} {err : Text}
    (h : updateWorldState channel driver db b = .error err) :
    tablesAfter channel driver db b = db := by
  rw [tablesAfter, h]

/-- Replaying any block that was ever accepted is a no-op. A block is refused with a
conflict exactly if its number can be stored and one of its rows disagrees with a
stored row or with an earlier one of its own, and a refusal changes nothing. -/
theorem replay_noop_conflict_refused :
    (∀ db log, Reached db log → ∀ channel b, (channel, b) ∈ log →
      updateWorldState channel [] db b = .ok db ∧
        ∀ driver, tablesAfter channel driver db b = db) ∧
    ∀ channel db b, PrimaryKey db.worldstate →
      ((∃ x r, updateWorldState channel [] db b = .error (conflictErr x r)) ↔
        b.number < 2 ^ 63 ∧ Disagrees db.worldstate (blockRows channel b)) ∧
      ∀ driver x r, updateWorldState channel driver db b = .error (conflictErr x r) →
        b.number < 2 ^ 63 ∧ Disagrees db.worldstate (blockRows channel b) ∧
          tablesAfter channel driver db b = db := by
  refine ⟨?_, ?_⟩
  · intro db log run channel b hb
    have hs := run.settled hb
    refine ⟨hs.replay, ?_⟩
    intro driver
    unfold tablesAfter
    split
    · rename_i db' h
      rw [(updateWorldState_ok h).2.2, hs.applied_eq]
    · rfl
  · intro channel db b hkey
    have hdisagrees : ¬ Agrees db.worldstate (blockRows channel b) ↔
        Disagrees db.worldstate (blockRows channel b) := by
      rw [agrees_iff hkey, not_not]
    have hsound : ∀ driver x r, updateWorldState channel driver db b = .error (conflictErr x r) →
        b.number < 2 ^ 63 ∧ Disagrees db.worldstate (blockRows channel b) := by
      intro driver x r h
      rw [← hdisagrees]
      exact updateWorldState_conflict h
    refine ⟨⟨?_, ?_⟩, ?_⟩
    · rintro ⟨x, r, h⟩
      exact hsound [] x r h
    · rintro ⟨hn, hd⟩
      exact updateWorldState_of_not_agrees hn (hdisagrees.mpr hd)
    · intro driver x r h
      exact ⟨(hsound driver x r h).1, (hsound driver x r h).2, tablesAfter_of_error h⟩

end Refusal

section Sample

/-- The tables after the blocks of `sampleDb`, with the channel of each. -/
theorem sampleDb_reached :
    Reached sampleDb [([99], sampleCreate), ([100], sampleDelete), ([99], sampleDelete)] := by
  have u₁ : updateWorldState [99] [] Database.empty sampleCreate =
      .ok (applied [99] Database.empty sampleCreate) := rfl
  have u₂ : updateWorldState [100] [] (applied [99] Database.empty sampleCreate) sampleDelete =
      .ok (applied [100] (applied [99] Database.empty sampleCreate) sampleDelete) := rfl
  have u₃ : updateWorldState [99] []
      (applied [100] (applied [99] Database.empty sampleCreate) sampleDelete) sampleDelete =
      .ok sampleDb := rfl
  exact ((Reached.empty.update u₁).update u₂).update u₃

/-- A block that would store another value where `sampleCreate` has stored one. -/
def sampleForged : Block := sampleBlock 1 [sampleTx 0 .committed false [8]]

theorem replay_noop_conflict_refused_sample :
    Reached sampleDb [([99], sampleCreate), ([100], sampleDelete), ([99], sampleDelete)] ∧
      updateWorldState [99] [] sampleDb sampleCreate = .ok sampleDb ∧
      PrimaryKey sampleDb.worldstate ∧
      ∃ x r, updateWorldState [99] [] sampleDb sampleForged = .error (conflictErr x r) := by
  refine ⟨sampleDb_reached, ?_, sampleDb_reached.primaryKey, ?_⟩
  · exact (replay_noop_conflict_refused.1 sampleDb _ sampleDb_reached [99] sampleCreate
      (by simp)).1
  · apply (replay_noop_conflict_refused.2 [99] sampleDb sampleForged
      sampleDb_reached.primaryKey).1.mpr
    refine ⟨by decide, [], _, [], rfl, ?_⟩
    exact ⟨_, List.mem_cons_self, by decide, by decide⟩

/-- A transaction that writes one key twice, in a block whose number has the high
bit set. -/
def sampleHighNumber : Block :=
  sampleBlock (2 ^ 63)
    [{ sampleTx 0 .committed false [] with
        nsRWS := [⟨[110], ⟨[], [⟨[107], false, [1]⟩, ⟨[107], false, [2]⟩]⟩⟩] }]

/-- The writes of the block disagree, but the driver refuses its number first. -/
theorem high_number_hides_conflict :
    Reached Database.empty [] ∧
      Disagrees Database.empty.worldstate (blockRows [99] sampleHighNumber) ∧
      updateWorldState [99] [] Database.empty sampleHighNumber =
        .error (wrapErr "batch insert exec" [.lit "sql: converting argument $", .num 4,
          .lit " type: uint64 values with high bit set are not supported"]) ∧
      ∀ x r, updateWorldState [99] [] Database.empty sampleHighNumber ≠
        .error (conflictErr x r) := by
  refine ⟨Reached.empty, ?_, rfl, ?_⟩
  · exact ⟨[_], _, [], rfl, _, List.mem_cons_self, by decide, by decide⟩
  · intro x r h
    exact absurd (updateWorldState_conflict h).1 (by decide)

end Sample

end FabricXSdk.State

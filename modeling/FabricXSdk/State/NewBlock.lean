import FabricXSdk.State.Reads
import FabricXSdk.State.Replay

/-!
# Storing a new block

A block with a number above those of the history meets no row of its own number, so the
only rows it can disagree with are its own. The store takes it exactly if its number can
be stored and no valid transaction writes one key twice with different content.
-/

namespace FabricXSdk.State

open Golang Blocks Atomic VersionLog

/-- The transaction writes one key twice, with another value or delete flag. -/
def Ambiguous (tx : Transaction) : Prop :=
  ∃ n ∈ tx.nsRWS, ∃ w ∈ n.rws.writes, ∃ n' ∈ tx.nsRWS, ∃ w' ∈ n'.rws.writes,
    n.ns = n'.ns ∧ w.key = w'.key ∧ ¬ (w.value = w'.value ∧ w.isDelete = w'.isDelete)

instance (tx : Transaction) : Decidable (Ambiguous tx) :=
  inferInstanceAs (Decidable (∃ n ∈ tx.nsRWS, ∃ w ∈ n.rws.writes, ∃ n' ∈ tx.nsRWS,
    ∃ w' ∈ n'.rws.writes, n.ns = n'.ns ∧ w.key = w'.key ∧
      ¬ (w.value = w'.value ∧ w.isDelete = w'.isDelete)))

variable {channel : GoString} {db : Database} {hist : List Block} {b : Block} {x r : Row}

theorem SameContent.symm (h : SameContent x r) : SameContent r x :=
  ⟨h.1.symm, h.2.1.symm, h.2.2.symm⟩

theorem mem_blockRows : r ∈ blockRows channel b ↔
    ∃ tx ∈ b.transactions, tx.valid = true ∧ ∃ n ∈ tx.nsRWS, ∃ w ∈ n.rws.writes,
      writeRow channel b.number tx n.ns w = r := by
  simp only [blockRows, List.mem_flatMap, mem_txRows]

/-- Transactions of a block with one number are one transaction. -/
theorem eq_of_number (hb : b.InOrder) {t t' : Transaction}
    (ht : t ∈ b.transactions) (ht' : t' ∈ b.transactions) (heq : t.number = t'.number) :
    t = t' := by
  by_contra hne
  have hpairs : b.transactions.Pairwise fun t t' => t.number ≠ t'.number :=
    List.Pairwise.imp Nat.ne_of_lt hb
  have hsymm : Std.Symm fun t t' : Transaction => t.number ≠ t'.number :=
    ⟨fun _ _ => Ne.symm⟩
  exact List.Pairwise.forall hpairs ht ht' hne heq

/-- A new block meets no row that is stored. -/
theorem Refines.not_sameKey (h : Refines channel db hist)
    (hlt : ∀ a ∈ hist, a.number < b.number) (hx : x ∈ db.worldstate)
    (hr : r ∈ blockRows channel b) : ¬ SameKey x r := by
  rintro ⟨hkey, hstamp⟩
  obtain ⟨hchannel, hblock⟩ := channel_of_mem_blockRows hr
  have hrow : x ∈ db.rowsOf channel r.ns r.key := by
    refine (mem_ofKey rowSchema).mpr ⟨hx, hkey.trans ?_⟩
    rw [← hchannel]
    rfl
  obtain ⟨a, ha, hw⟩ := State.mem_writesTo.mp (h.mem_writesTo hrow)
  have hnumber : x.versionBlock = a.number := blockNum_of_mem_blockWrites hw
  have hsame : x.versionBlock = r.versionBlock := congrArg (fun s => (ofLex s).1) hstamp
  have := hlt a ha
  omega

/-- Two rows of a block at one primary key with different content are two writes of an
ambiguous transaction. -/
theorem exists_ambiguous (hb : b.InOrder) (hx : x ∈ blockRows channel b)
    (hr : r ∈ blockRows channel b) (hkey : SameKey x r) (hne : ¬ SameContent x r) :
    ∃ tx ∈ b.transactions, tx.valid = true ∧ Ambiguous tx := by
  obtain ⟨t, ht, hv, n, hn, w, hw, rfl⟩ := mem_blockRows.mp hx
  obtain ⟨t', ht', _, n', hn', w', hw', rfl⟩ := mem_blockRows.mp hr
  obtain ⟨hkey, hstamp⟩ := hkey
  have hnumber : t.number = t'.number := congrArg (fun s => (ofLex s).2) hstamp
  obtain rfl := eq_of_number hb ht ht' hnumber
  obtain ⟨_, hns, hk⟩ : channel = channel ∧ n.ns = n'.ns ∧ w.key = w'.key := by
    simpa [rowSchema, writeRow] using hkey
  refine ⟨t, ht, hv, n, hn, w, hw, n', hn', w', hw', hns, hk, fun hsame => hne ?_⟩
  exact ⟨hsame.1, hsame.2, rfl⟩

theorem disagrees_new_iff (h : Refines channel db hist)
    (hlt : ∀ a ∈ hist, a.number < b.number) (hb : b.InOrder) :
    Disagrees db.worldstate (blockRows channel b) ↔
      ∃ tx ∈ b.transactions, tx.valid = true ∧ Ambiguous tx := by
  constructor
  · rintro ⟨pre, r, post, heq, x, hx, hkey, hne⟩
    have hr : r ∈ blockRows channel b := by rw [heq]; simp
    rcases List.mem_append.mp hx with hx | hx
    · exact absurd hkey (h.not_sameKey hlt hx hr)
    · exact exists_ambiguous hb (by rw [heq]; exact List.mem_append_left _ hx) hr hkey hne
  · rintro ⟨tx, htx, hv, n, hn, w, hw, n', hn', w', hw', hns, hk, hcontent⟩
    have hx : writeRow channel b.number tx n.ns w ∈ blockRows channel b :=
      mem_blockRows.mpr ⟨tx, htx, hv, n, hn, w, hw, rfl⟩
    have hr : writeRow channel b.number tx n'.ns w' ∈ blockRows channel b :=
      mem_blockRows.mpr ⟨tx, htx, hv, n', hn', w', hw', rfl⟩
    have hkey : SameKey (writeRow channel b.number tx n.ns w)
        (writeRow channel b.number tx n'.ns w') := by
      simp [SameKey, rowSchema, writeRow, hns, hk]
    have hne : ¬ SameContent (writeRow channel b.number tx n.ns w)
        (writeRow channel b.number tx n'.ns w') :=
      fun hsame => hcontent ⟨hsame.1, hsame.2.1⟩
    -- whichever of the two rows comes second meets the other
    obtain ⟨pre, post, heq⟩ := List.append_of_mem hr
    rw [heq, List.mem_append, List.mem_cons] at hx
    rcases hx with hx | hx | hx
    · exact ⟨pre, _, post, heq, _, List.mem_append_right _ hx, hkey, hne⟩
    · rw [hx] at hne
      exact absurd ⟨rfl, rfl, rfl⟩ hne
    · obtain ⟨pre', post', rfl⟩ := List.append_of_mem hx
      refine ⟨pre ++ writeRow channel b.number tx n'.ns w' :: pre', _, post', by rw [heq]; simp,
        _, ?_, hkey.symm, fun hsame => hne hsame.symm⟩
      simp

/-- When the store takes a block that is new to it. -/
theorem updateWorldState_new_iff {db' : Database} (h : Refines channel db hist)
    (hprimary : PrimaryKey db.worldstate) (hlt : ∀ a ∈ hist, a.number < b.number)
    (hb : b.InOrder) :
    updateWorldState channel [] db b = .ok db' ↔
      b.number < 2 ^ 63 ∧ (∀ tx ∈ b.transactions, tx.valid = true → ¬ Ambiguous tx) ∧
        db' = applied channel db b := by
  rw [updateWorldState_free_iff, agrees_iff hprimary, disagrees_new_iff h hlt hb]
  push Not
  rfl

theorem Accepted.primaryKey (run : Accepted channel db hist) : PrimaryKey db.worldstate := by
  have hstep : ∀ {channel : GoString} {driver : Driver Text} {db db' : Database} {b : Block},
      PrimaryKey db.worldstate → updateWorldState channel driver db b = .ok db' →
      PrimaryKey db'.worldstate := by
    intro channel driver db db' b hprimary hu
    obtain ⟨_, _, rfl⟩ := updateWorldState_ok hu
    rw [applied_worldstate]
    exact hprimary.insertAll _
  induction run with
  | empty => exact List.Pairwise.nil
  | next _ _ _ hu ih => exact hstep ih hu
  | replay _ _ _ _ hu ih => exact hstep ih hu
  | other _ _ hu ih => exact hstep ih hu

end FabricXSdk.State

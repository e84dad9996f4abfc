import Mathlib.Data.List.Sort

/-!
# Insert-only tables with a version counter per key

A row has a key, a stamp and a version. An insert is ignored when a row with its
key and stamp is present, and otherwise takes the greatest version of its key
plus one. Everything a read needs follows from one invariant: the rows of a key,
in the order they were inserted, are numbered `0, 1, 2, ...`.

The two reads are the row of greatest version and the rows in stamp order. When
stamps grow along the rows of a key, both orders are the order of insertion.
-/

namespace VersionLog

/-- The columns of a row type. Renumbering a row changes its version only. -/
structure Schema (R κ σ : Type*) where
  key : R → κ
  stamp : R → σ
  version : R → ℕ
  withVersion : ℕ → R → R
  key_withVersion : ∀ n r, key (withVersion n r) = key r
  stamp_withVersion : ∀ n r, stamp (withVersion n r) = stamp r
  version_withVersion : ∀ n r, version (withVersion n r) = n

attribute [simp] Schema.key_withVersion Schema.stamp_withVersion Schema.version_withVersion

variable {R κ σ : Type*} [DecidableEq κ] (S : Schema R κ σ)

/-- The rows of one key, in the order they were inserted. -/
def ofKey (k : κ) (rows : List R) : List R := rows.filter fun r => S.key r = k

@[simp] theorem ofKey_nil (k : κ) : ofKey S k [] = [] := rfl

@[simp] theorem ofKey_append (k : κ) (rows rows' : List R) :
    ofKey S k (rows ++ rows') = ofKey S k rows ++ ofKey S k rows' :=
  List.filter_append ..

theorem mem_ofKey {k : κ} {rows : List R} {r : R} :
    r ∈ ofKey S k rows ↔ r ∈ rows ∧ S.key r = k := by
  simp [ofKey]

/-- `COALESCE(MAX(version) + 1, 0)` over the rows of a key. -/
def nextVersion (k : κ) (rows : List R) : ℕ :=
  match ((ofKey S k rows).map S.version).max? with
  | none => 0
  | some m => m + 1

/-- The rows of a key carry the versions `0, 1, 2, ...` in insertion order. -/
def Numbered (k : κ) (rows : List R) : Prop :=
  (ofKey S k rows).map S.version = List.range (ofKey S k rows).length

theorem numbered_nil (k : κ) : Numbered S k ([] : List R) := rfl

/-- A numbered key takes its number of rows as the next version. -/
theorem nextVersion_of_numbered {k : κ} {rows : List R} (h : Numbered S k rows) :
    nextVersion S k rows = (ofKey S k rows).length := by
  unfold nextVersion
  rw [h]
  cases hn : (ofKey S k rows).length with
  | zero => rfl
  | succ n =>
      have hmax : (List.range (n + 1)).max? = some n := by
        rw [List.max?_eq_some_iff]
        exact ⟨by simp, fun b hb => by simpa [Nat.lt_succ_iff] using hb⟩
      rw [hmax]

theorem numbered_pairwise {k : κ} {rows : List R} (h : Numbered S k rows) :
    (ofKey S k rows).Pairwise fun a b => S.version a < S.version b := by
  rw [← List.pairwise_map, h]
  exact List.pairwise_lt_range

section Insert

variable [DecidableEq σ]

/-- Insert a row unless its key and stamp are taken. -/
def insert (rows : List R) (r : R) : List R :=
  if rows.any fun x => S.key x = S.key r ∧ S.stamp x = S.stamp r then rows
  else rows ++ [S.withVersion (nextVersion S (S.key r) rows) r]

theorem insert_taken {rows : List R} {r : R}
    (h : ∃ x ∈ ofKey S (S.key r) rows, S.stamp x = S.stamp r) :
    insert S rows r = rows := by
  obtain ⟨x, hx, hs⟩ := h
  rw [mem_ofKey] at hx
  have hany : rows.any (fun x => S.key x = S.key r ∧ S.stamp x = S.stamp r) = true :=
    List.any_eq_true.mpr ⟨x, hx.1, by simp [hx.2, hs]⟩
  simp only [insert, hany, if_true]

theorem insert_fresh {rows : List R} {r : R}
    (h : ∀ x ∈ ofKey S (S.key r) rows, S.stamp x ≠ S.stamp r) :
    insert S rows r = rows ++ [S.withVersion (nextVersion S (S.key r) rows) r] := by
  have hany : ¬ rows.any (fun x => S.key x = S.key r ∧ S.stamp x = S.stamp r) = true := by
    intro hany
    obtain ⟨x, hx, hr⟩ := List.any_eq_true.mp hany
    simp only [decide_eq_true_eq] at hr
    exact h x ((mem_ofKey S).mpr ⟨hx, hr.1⟩) hr.2
  simp only [insert, if_neg hany]

theorem insert_taken_or_fresh (rows : List R) (r : R) :
    (∃ x ∈ ofKey S (S.key r) rows, S.stamp x = S.stamp r) ∨
      ∀ x ∈ ofKey S (S.key r) rows, S.stamp x ≠ S.stamp r := by
  by_cases h : ∃ x ∈ ofKey S (S.key r) rows, S.stamp x = S.stamp r
  · exact Or.inl h
  · exact Or.inr fun x hx hs => h ⟨x, hx, hs⟩

/-- An insert touches the rows of its own key only. -/
theorem ofKey_insert_ne {k : κ} (rows : List R) {r : R} (hk : S.key r ≠ k) :
    ofKey S k (insert S rows r) = ofKey S k rows := by
  rcases insert_taken_or_fresh S rows r with ht | hf
  · rw [insert_taken S ht]
  · rw [insert_fresh S hf, ofKey_append]
    simp [ofKey, hk]

theorem ofKey_insert_fresh {rows : List R} {r : R}
    (h : ∀ x ∈ ofKey S (S.key r) rows, S.stamp x ≠ S.stamp r) :
    ofKey S (S.key r) (insert S rows r) =
      ofKey S (S.key r) rows ++ [S.withVersion (nextVersion S (S.key r) rows) r] := by
  rw [insert_fresh S h, ofKey_append]
  simp [ofKey]

theorem numbered_insert {k : κ} {rows : List R} (h : Numbered S k rows) (r : R) :
    Numbered S k (insert S rows r) := by
  by_cases hk : S.key r = k
  · subst hk
    rcases insert_taken_or_fresh S rows r with ht | hf
    · rw [insert_taken S ht]
      exact h
    · unfold Numbered
      rw [ofKey_insert_fresh S hf, List.map_append, h, List.length_append]
      simp [nextVersion_of_numbered S h, List.range_succ]
  · unfold Numbered
    rw [ofKey_insert_ne S rows hk]
    exact h

/-- Inserting a list of rows in order. -/
def insertAll (rows rs : List R) : List R := rs.foldl (insert S) rows

@[simp] theorem insertAll_nil (rows : List R) : insertAll S rows [] = rows := rfl

@[simp] theorem insertAll_cons (rows rs : List R) (r : R) :
    insertAll S rows (r :: rs) = insertAll S (insert S rows r) rs := rfl

theorem insertAll_append (rows rs rs' : List R) :
    insertAll S rows (rs ++ rs') = insertAll S (insertAll S rows rs) rs' :=
  List.foldl_append ..

theorem numbered_insertAll {k : κ} {rows : List R} (h : Numbered S k rows) (rs : List R) :
    Numbered S k (insertAll S rows rs) := by
  induction rs generalizing rows with
  | nil => exact h
  | cons r rs ih => exact ih (numbered_insert S h r)

theorem ofKey_insertAll_ne {k : κ} (rows : List R) {rs : List R}
    (hk : ∀ r ∈ rs, S.key r ≠ k) :
    ofKey S k (insertAll S rows rs) = ofKey S k rows := by
  induction rs generalizing rows with
  | nil => rfl
  | cons r rs ih =>
      rw [insertAll_cons, ih _ fun r' hr' => hk r' (List.mem_cons_of_mem _ hr'),
        ofKey_insert_ne S rows (hk r List.mem_cons_self)]

/-- What an insert does to a key depends on the rows of that key only. -/
theorem ofKey_insert_congr {k : κ} {rows rows' : List R} (h : ofKey S k rows = ofKey S k rows')
    (r : R) : ofKey S k (insert S rows r) = ofKey S k (insert S rows' r) := by
  by_cases hk : S.key r = k
  · subst hk
    rcases insert_taken_or_fresh S rows r with ht | hf
    · have ht' := ht
      rw [h] at ht'
      rw [insert_taken S ht, insert_taken S ht', h]
    · have hf' := hf
      rw [h] at hf'
      rw [ofKey_insert_fresh S hf, ofKey_insert_fresh S hf', nextVersion, nextVersion, h]
  · rw [ofKey_insert_ne S rows hk, ofKey_insert_ne S rows' hk, h]

theorem ofKey_insertAll_congr {k : κ} {rows rows' : List R} (h : ofKey S k rows = ofKey S k rows')
    (rs : List R) : ofKey S k (insertAll S rows rs) = ofKey S k (insertAll S rows' rs) := by
  induction rs generalizing rows rows' with
  | nil => exact h
  | cons r rs ih => exact ih (ofKey_insert_congr S h r)

/-- Every row after some inserts was there before or has the key and the stamp of an
inserted one. -/
theorem mem_insertAll {rows rs : List R} {x : R} (h : x ∈ insertAll S rows rs) :
    x ∈ rows ∨ ∃ r ∈ rs, S.key x = S.key r ∧ S.stamp x = S.stamp r := by
  induction rs generalizing rows with
  | nil => exact Or.inl h
  | cons r rs ih =>
      rcases ih h with hx | ⟨r', hr', hx⟩
      · rcases insert_taken_or_fresh S rows r with ht | hf
        · rw [insert_taken S ht] at hx
          exact Or.inl hx
        · rw [insert_fresh S hf, List.mem_append, List.mem_singleton] at hx
          rcases hx with hx | rfl
          · exact Or.inl hx
          · exact Or.inr ⟨r, List.mem_cons_self, by simp, by simp⟩
      · exact Or.inr ⟨r', List.mem_cons_of_mem r hr', hx⟩

/-- Inserts that a selection leaves out do not change it. -/
theorem filter_insertAll {p : R → Bool} (rows : List R) {rs : List R}
    (h : ∀ r ∈ rs, ∀ n, p (S.withVersion n r) = false) :
    (insertAll S rows rs).filter p = rows.filter p := by
  induction rs generalizing rows with
  | nil => rfl
  | cons r rs ih =>
      rw [insertAll_cons, ih _ fun r' hr' => h r' (List.mem_cons_of_mem r hr')]
      rcases insert_taken_or_fresh S rows r with ht | hf
      · rw [insert_taken S ht]
      · rw [insert_fresh S hf, List.filter_append]
        simp [h r List.mem_cons_self]

/-- Rows that are all present already change nothing. -/
theorem insertAll_taken {rows rs : List R}
    (h : ∀ r ∈ rs, ∃ x ∈ ofKey S (S.key r) rows, S.stamp x = S.stamp r) :
    insertAll S rows rs = rows := by
  induction rs with
  | nil => rfl
  | cons r rs ih =>
      rw [insertAll_cons, insert_taken S (h r List.mem_cons_self)]
      exact ih fun r' hr' => h r' (List.mem_cons_of_mem _ hr')

theorem ofKey_insertAll_stamp_taken {k : κ} {s : σ} {rows rs : List R}
    (hs : ∀ r ∈ rs, S.stamp r = s) (ht : ∃ x ∈ ofKey S k rows, S.stamp x = s) :
    ofKey S k (insertAll S rows rs) = ofKey S k rows := by
  induction rs generalizing rows with
  | nil => rfl
  | cons r rs ih =>
      have hrs : ∀ r' ∈ rs, S.stamp r' = s := fun r' hr' => hs r' (List.mem_cons_of_mem _ hr')
      have hr : S.stamp r = s := hs r List.mem_cons_self
      have hkeep : ofKey S k (insert S rows r) = ofKey S k rows := by
        by_cases hk : S.key r = k
        · subst hk
          rw [insert_taken S (by simpa only [hr] using ht)]
        · exact ofKey_insert_ne S rows hk
      rw [insertAll_cons, ih hrs (by rwa [hkeep]), hkeep]

/-- Rows of one stamp that is new to a key add the first of them to that key. -/
theorem ofKey_insertAll_stamp_fresh {k : κ} {s : σ} {rows rs : List R}
    (hs : ∀ r ∈ rs, S.stamp r = s) (hf : ∀ x ∈ ofKey S k rows, S.stamp x ≠ s) :
    ofKey S k (insertAll S rows rs) = ofKey S k rows ++
      ((rs.find? fun r => S.key r = k).map
        (S.withVersion (nextVersion S k rows))).toList := by
  induction rs generalizing rows with
  | nil => simp
  | cons r rs ih =>
      have hrs : ∀ r' ∈ rs, S.stamp r' = s := fun r' hr' => hs r' (List.mem_cons_of_mem _ hr')
      have hr : S.stamp r = s := hs r List.mem_cons_self
      by_cases hk : S.key r = k
      · subst hk
        have hf' : ∀ x ∈ ofKey S (S.key r) rows, S.stamp x ≠ S.stamp r := by rwa [hr]
        have hins := ofKey_insert_fresh S hf'
        -- the first row of the key takes the stamp, which keeps the later ones out
        have htaken : ∃ x ∈ ofKey S (S.key r) (insert S rows r), S.stamp x = s := by
          rw [hins]
          exact ⟨_, List.mem_append_right _ (List.mem_singleton.mpr rfl), by simpa using hr⟩
        rw [insertAll_cons, ofKey_insertAll_stamp_taken S hrs htaken, hins]
        simp
      · have hins := ofKey_insert_ne S rows hk
        -- a row of another key leaves the version for this one as it was
        have hnext : nextVersion S k (insert S rows r) = nextVersion S k rows := by
          simp only [nextVersion, hins]
        rw [insertAll_cons, ih hrs (by rwa [hins]), hins, hnext]
        simp [hk]

end Insert

section Read

/-- `ORDER BY version DESC LIMIT 1`. -/
def latest (rows : List R) : Option R :=
  (rows.insertionSort fun a b => S.version b ≤ S.version a).head?

omit [DecidableEq κ] in
/-- Growing versions make the last row the one a descending read returns. -/
theorem latest_eq_getLast? {rows : List R}
    (h : rows.Pairwise fun a b => S.version a < S.version b) :
    latest S rows = rows.getLast? := by
  let ge : R → R → Prop := fun a b => S.version b ≤ S.version a
  have htotal : Std.Total ge := ⟨fun a b => le_total _ _⟩
  have htrans : IsTrans R ge := ⟨fun _ _ _ hab hbc => le_trans hbc hab⟩
  have hrev : rows.reverse.Pairwise ge := by
    rw [List.pairwise_reverse]
    exact h.imp fun hab => hab.le
  have hinj : ∀ a ∈ rows, ∀ b ∈ rows, S.version a = S.version b → a = b := by
    have hnodup : (rows.map S.version).Nodup := by
      rw [List.Nodup, List.pairwise_map]
      exact h.imp fun hab => hab.ne
    exact fun a ha b hb heq => List.inj_on_of_nodup_map hnodup ha hb heq
  -- versions are distinct, so there is one descending order
  have hsort : rows.insertionSort ge = rows.reverse := by
    refine @List.Perm.eq_of_pairwise R ge _ _ ?_ (List.pairwise_insertionSort ge rows) hrev
      ((List.perm_insertionSort ge rows).trans rows.reverse_perm.symm)
    intro a b ha hb hab hba
    exact hinj a ((List.mem_insertionSort ge).mp ha) b (List.mem_reverse.mp hb)
      (le_antisymm hba hab)
  calc
    latest S rows = (rows.insertionSort ge).head? := rfl
    _ = rows.reverse.head? := by rw [hsort]
    _ = rows.getLast? := List.head?_reverse

variable [LinearOrder σ]

/-- `ORDER BY` the stamp. -/
def inStampOrder (rows : List R) : List R :=
  rows.insertionSort fun a b => S.stamp a ≤ S.stamp b

omit [DecidableEq κ] in
theorem inStampOrder_eq_self {rows : List R}
    (h : rows.Pairwise fun a b => S.stamp a < S.stamp b) : inStampOrder S rows = rows :=
  List.Pairwise.insertionSort_eq (h.imp fun hab => hab.le)

end Read

end VersionLog

import Mathlib.Data.List.AList
import Mathlib.Data.List.Induction

/-!
# Memo tables

Calls that may fail are answered through a table. A call whose key is in the table gets
the value stored there; any other call fetches its value and stores it, unless the fetch
fails. Calls of one key share an entry, whichever of them came first.
-/

namespace Memo

variable {α κ ρ ε : Type} [DecidableEq κ]

/-- The values stored, by key. -/
abbrev Table (κ ρ : Type) := AList fun _ : κ => ρ

variable (key : α → κ) (fetch : α → Except ε ρ) {t : Table κ ρ} {a : α} {k : κ} {l : List α}

/-- One call: its result and the table after it. -/
def ask (t : Table κ ρ) (a : α) : Except ε ρ × Table κ ρ :=
  match t.lookup (key a) with
  | some r => (.ok r, t)
  | none =>
      match fetch a with
      | .error err => (.error err, t)
      | .ok r => (.ok r, t.insert (key a) r)

/-- The table after a list of calls. -/
def askAll (t : Table κ ρ) (l : List α) : Table κ ρ :=
  l.foldl (fun t a => (ask key fetch t a).2) t

/-- What the first call of the key with a successful fetch got. -/
def firstAnswer (k : κ) (l : List α) : Option ρ :=
  l.findSome? fun a => if key a = k then (fetch a).toOption else none

theorem lookup_ask_snd (t : Table κ ρ) (a : α) (k : κ) :
    (ask key fetch t a).2.lookup k =
      (t.lookup k).or (if key a = k then (fetch a).toOption else none) := by
  rw [ask]
  cases hfound : t.lookup (key a) with
  | some r =>
      by_cases hk : key a = k
      · rw [← hk, hfound, Option.some_or]
      · rw [if_neg hk, Option.or_none]
  | none =>
      cases hfetch : fetch a with
      | error err => simp [Except.toOption]
      | ok r =>
          by_cases hk : key a = k
          · rw [← hk, hfound, AList.lookup_insert, if_pos rfl]
            rfl
          · rw [AList.lookup_insert_ne (Ne.symm hk), if_neg hk, Option.or_none]

/-- An entry of the table is what the first call of its key got. -/
theorem lookup_askAll (t : Table κ ρ) (l : List α) (k : κ) :
    (askAll key fetch t l).lookup k = (t.lookup k).or (firstAnswer key fetch k l) := by
  induction l generalizing t with
  | nil => rw [firstAnswer, List.findSome?_nil, Option.or_none]; rfl
  | cons a l ih =>
      rw [askAll, List.foldl_cons]
      change (askAll key fetch _ l).lookup k = _
      rw [ih, lookup_ask_snd, Option.or_assoc, firstAnswer, firstAnswer, List.findSome?_cons]
      congr 1
      cases (if key a = k then (fetch a).toOption else none) with
      | none => rfl
      | some r => rfl

theorem ask_fst (t : Table κ ρ) (a : α) :
    (ask key fetch t a).1 = ((t.lookup (key a)).map Except.ok).getD (fetch a) := by
  rw [ask]
  cases t.lookup (key a) with
  | some r => rfl
  | none => cases fetch a <;> rfl

/-- A call that fails stores nothing. -/
theorem ask_snd_of_error {err : ε} (h : (ask key fetch t a).1 = .error err) :
    (ask key fetch t a).2 = t := by
  rw [ask] at h ⊢
  cases hfound : t.lookup (key a) with
  | some r => rfl
  | none =>
      rw [hfound] at h
      cases hfetch : fetch a with
      | error err => rfl
      | ok r => rw [hfetch] at h; cases h

theorem firstAnswer_eq_some_mem {r : ρ} (h : firstAnswer key fetch k l = some r) :
    ∃ a ∈ l, key a = k ∧ fetch a = .ok r := by
  obtain ⟨a, hmem, ha⟩ := List.exists_of_findSome?_eq_some h
  split at ha
  · rename_i hk
    refine ⟨a, hmem, hk, ?_⟩
    cases hfetch : fetch a with
    | error err => rw [hfetch] at ha; cases ha
    | ok r' => rw [hfetch] at ha; cases ha; rfl
  · cases ha

theorem firstAnswer_append_cons {r : ρ} (before after : List α) (hk : key a = k)
    (ha : fetch a = .ok r) :
    firstAnswer key fetch k (before ++ a :: after) =
      (firstAnswer key fetch k before).or (some r) := by
  rw [firstAnswer, List.findSome?_append, List.findSome?_cons, if_pos hk, ha]
  rfl

/-- The result of a call after others: what the first of its key got, or its own fetch. -/
theorem ask_askAll_fst (before : List α) (a : α) :
    (ask key fetch (askAll key fetch ∅ before) a).1 =
      ((firstAnswer key fetch (key a) before).map Except.ok).getD (fetch a) := by
  rw [ask_fst, lookup_askAll, AList.lookup_empty, Option.none_or]

/-- Two calls of one key, the first of which is answered, have one answer: that of the first
answered call of the key, which may come before both. -/
theorem value_eq_of_answers {value : α → ρ} {before after : List α} {a b : α} {r : ρ}
    (hr : fetch a = .ok r) (hvalue : r = value a) (hk : key a = key b)
    (ha : ∀ r, ((firstAnswer key fetch (key a) before).map Except.ok).getD (fetch a) = .ok r →
      r = value a)
    (hb : ∀ r, ((firstAnswer key fetch (key b) (before ++ a :: after)).map Except.ok).getD
      (fetch b) = .ok r → r = value b) : value a = value b := by
  rw [firstAnswer_append_cons key fetch before after hk hr] at hb
  rw [hk] at ha
  cases hbefore : firstAnswer key fetch (key b) before with
  | some r₁ =>
      rw [hbefore] at ha hb
      rw [← ha r₁ rfl, ← hb r₁ rfl]
  | none =>
      rw [hbefore] at hb
      rw [← hb r rfl, hvalue]

/-- Every answer is the value of the call that asked, if and only if the calls of a key
all have one value from its first successful fetch on. -/
theorem transparent_iff (value : α → ρ)
    (hfetch : ∀ a ∈ l, ∀ r, fetch a = .ok r → r = value a) :
    (∀ before a after, l = before ++ a :: after →
      ∀ r, (ask key fetch (askAll key fetch ∅ before) a).1 = .ok r → r = value a) ↔
    l.Pairwise fun a b => (∃ r, fetch a = .ok r) → key a = key b → value a = value b := by
  simp only [ask_askAll_fst]
  constructor
  · intro h
    induction l using List.reverseRecOn with
    | nil => exact List.Pairwise.nil
    | append_singleton l b ih =>
        have hl : ∀ before a after, l = before ++ a :: after →
            ∀ r, ((firstAnswer key fetch (key a) before).map Except.ok).getD (fetch a) = .ok r →
              r = value a := by
          rintro before a after rfl
          exact h before a (after ++ [b]) (by simp)
        have hpairs := ih (fun a ha => hfetch a (List.mem_append_left _ ha)) hl
        refine List.pairwise_append.mpr ⟨hpairs, List.pairwise_singleton _ _, ?_⟩
        rintro a hmem b' hb' ⟨r, hr⟩ hk
        obtain rfl := List.mem_singleton.mp hb'
        have hvalue := hfetch a (List.mem_append_left _ hmem) r hr
        obtain ⟨before, after, rfl⟩ := List.append_of_mem hmem
        exact value_eq_of_answers key fetch hr hvalue hk (hl before a after rfl)
          (h (before ++ a :: after) b' [] rfl)
  · rintro hpairs before a after rfl r hr
    cases hfirst : firstAnswer key fetch (key a) before with
    | none =>
        rw [hfirst] at hr
        exact hfetch a (by simp) r hr
    | some r' =>
        rw [hfirst] at hr
        obtain rfl : r' = r := Except.ok.inj hr
        obtain ⟨b, hmem, hk, hb⟩ := firstAnswer_eq_some_mem key fetch hfirst
        rw [hfetch b (List.mem_append_left _ hmem) r' hb]
        exact (List.pairwise_append.mp hpairs).2.2 b hmem a List.mem_cons_self ⟨r', hb⟩ hk

end Memo

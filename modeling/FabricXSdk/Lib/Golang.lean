import Mathlib.Data.List.Lex
import Mathlib.Data.List.Sort
import Mathlib.Data.List.AList
import Mathlib.Data.Fin.Basic
import Mathlib.Algebra.Ring.Nat
import Mathlib.Algebra.Ring.Int.Defs

/-!
# Go values and the choices Go leaves open

Byte slices and strings are lists of bytes, compared bytewise as `bytes.Compare`
does. A formatted message is kept as the list of pieces `fmt` would concatenate.
A call can end in a panic, which is an outcome of its own. The iteration order of
a map and the order an unstable sort gives to equal elements are not part of the
language, so both are fields of a `Runtime`.

## Implementation notes

`nil` and the empty slice are the same list. A sort is described by the key it
compares, since every comparison function modelled here compares one key.
-/

namespace Golang

abbrev Byte := Fin 256

/-- A byte slice, with `nil` and the empty slice identified. -/
abbrev Bytes := List Byte

/-- A string is an immutable byte sequence and need not be valid UTF-8. -/
abbrev GoString := Bytes

instance neZero_byte : NeZero 256 := ⟨by decide⟩

instance lawfulBEq_bytes : LawfulBEq Bytes := inferInstance

/-- One piece of a formatted message: literal text, `%q`, `%s`, `%d`, or bytes in base64. -/
inductive Piece
  | lit (s : String)
  | quoted (s : GoString)
  | str (s : GoString)
  | num (n : Int)
  | base64 (b : Bytes)
  deriving DecidableEq, Repr

abbrev Text := List Piece

/-- How a call ends: with a value, with an error, or with a panic that no caller
in the model recovers. -/
inductive Outcome (α : Type)
  | ok (a : α)
  | error (err : Text)
  | panic
  deriving DecidableEq, Repr

namespace Outcome

variable {α β : Type}

def bind (x : Outcome α) (f : α → Outcome β) : Outcome β :=
  match x with
  | .ok a => f a
  | .error err => .error err
  | .panic => .panic

instance : Monad Outcome where
  pure := .ok
  bind := Outcome.bind

/-- Return an error after wrapping it, `fmt.Errorf("what: %w", err)`. -/
def ofExcept (what : String) : Except Text α → Outcome α
  | .ok a => .ok a
  | .error err => .error (.lit what :: .lit ": " :: err)

/-- Return an error as it is. -/
def lift : Except Text α → Outcome α
  | .ok a => .ok a
  | .error err => .error err

/-- `if p { return err }`. -/
def failIf (p : Prop) [Decidable p] (err : Text) : Outcome Unit :=
  if p then .error err else .ok ()

def getD (x : Outcome α) (default : α) : α :=
  match x with
  | .ok a => a
  | _ => default

/-- Follow a pointer. -/
def deref : Option α → Outcome α
  | some a => .ok a
  | none => .panic

@[simp] theorem pure_eq (a : α) : (pure a : Outcome α) = .ok a := rfl

@[simp] theorem ok_bind (a : α) (f : α → Outcome β) : (Outcome.ok a >>= f) = f a := rfl

@[simp] theorem error_bind (err : Text) (f : α → Outcome β) :
    (Outcome.error err >>= f) = .error err := rfl

@[simp] theorem panic_bind (f : α → Outcome β) : (Outcome.panic >>= f) = .panic := rfl

/-- A sequence of two calls panics in the first, or in the second after the first
has returned a value. -/
theorem bind_eq_panic {x : Outcome α} {f : α → Outcome β} :
    (x >>= f) = .panic ↔ x = .panic ∨ ∃ a, x = .ok a ∧ f a = .panic := by
  cases x <;> simp

@[simp] theorem ofExcept_ne_panic (what : String) (x : Except Text α) :
    ofExcept what x ≠ .panic := by
  cases x <;> simp [ofExcept]

theorem ofExcept_eq_ok {what : String} {x : Except Text α} {a : α} :
    ofExcept what x = .ok a ↔ x = .ok a := by
  cases x <;> simp [ofExcept]

@[simp] theorem lift_ne_panic (x : Except Text α) : lift x ≠ .panic := by
  cases x <;> simp [lift]

theorem lift_eq_ok {x : Except Text α} {a : α} : lift x = .ok a ↔ x = .ok a := by
  cases x <;> simp [lift]

@[simp] theorem failIf_eq_ok {p : Prop} [Decidable p] {err : Text} :
    failIf p err = .ok () ↔ ¬ p := by
  by_cases h : p <;> simp [failIf, h]

/-- A sequence of two calls returns a value if both do. -/
theorem bind_eq_ok {x : Outcome α} {f : α → Outcome β} {b : β} :
    (x >>= f) = .ok b ↔ ∃ a, x = .ok a ∧ f a = .ok b := by
  cases x <;> simp

/-- A sequence of two calls fails in the first, or in the second after the first has
returned a value. -/
theorem bind_eq_error {x : Outcome α} {f : α → Outcome β} {err : Text} :
    (x >>= f) = .error err ↔ x = .error err ∨ ∃ a, x = .ok a ∧ f a = .error err := by
  cases x <;> simp

@[simp] theorem deref_ne_error {x : Option α} {err : Text} : deref x ≠ .error err := by
  cases x <;> simp [deref]

@[simp] theorem deref_eq_panic {x : Option α} : deref x = .panic ↔ x = none := by
  cases x <;> simp [deref]

@[simp] theorem deref_eq_ok {x : Option α} {a : α} : deref x = .ok a ↔ x = some a := by
  cases x <;> simp [deref]

section Errors

variable {P Q : Text → Prop} {x : Outcome α}

/-- Every error the call can return has the property. -/
def ErrorsIn (P : Text → Prop) (x : Outcome α) : Prop := ∀ err, x = .error err → P err

theorem errorsIn_ok (a : α) : ErrorsIn P (.ok a) := by
  intro err h
  cases h

theorem errorsIn_error {err : Text} (h : P err) : ErrorsIn P (.error err : Outcome α) := by
  intro err' heq
  cases heq
  exact h

theorem ErrorsIn.mono (hx : ErrorsIn P x) (h : ∀ err, P err → Q err) : ErrorsIn Q x :=
  fun err herr => h err (hx err herr)

/-- The errors of a sequence of two calls are those of the two. -/
theorem ErrorsIn.bind {f : α → Outcome β} (hx : ErrorsIn P x) (hf : ∀ a, ErrorsIn P (f a)) :
    ErrorsIn P (x >>= f) := by
  intro err h
  rcases bind_eq_error.mp h with h | ⟨a, _, h⟩
  · exact hx err h
  · exact hf a err h

theorem errorsIn_ofExcept {what : String} {r : Except Text α}
    (h : ∀ err, P (.lit what :: err)) : ErrorsIn P (ofExcept what r) := by
  cases r with
  | ok a => exact errorsIn_ok a
  | error err => exact errorsIn_error (h _)

theorem errorsIn_failIf {p : Prop} [Decidable p] {err : Text} (h : P err) :
    ErrorsIn P (failIf p err) := by
  rw [failIf]
  split
  · exact errorsIn_error h
  · exact errorsIn_ok ()

theorem errorsIn_deref (a : Option α) : ErrorsIn P (deref a) := by
  intro err h
  exact absurd h deref_ne_error

end Errors

end Outcome

/-- The bytes that may follow a first byte, each with its range, as in the table
of `unicode/utf8`. -/
def utf8Tail (b : ℕ) : Option (List (ℕ × ℕ)) :=
  if b < 0x80 then some []
  else if b < 0xC2 then none
  else if b < 0xE0 then some [(0x80, 0xBF)]
  -- no overlong forms, and below no surrogates
  else if b = 0xE0 then some [(0xA0, 0xBF), (0x80, 0xBF)]
  else if b = 0xED then some [(0x80, 0x9F), (0x80, 0xBF)]
  else if b < 0xF0 then some [(0x80, 0xBF), (0x80, 0xBF)]
  else if b = 0xF0 then some [(0x90, 0xBF), (0x80, 0xBF), (0x80, 0xBF)]
  else if b < 0xF4 then some [(0x80, 0xBF), (0x80, 0xBF), (0x80, 0xBF)]
  -- nothing above `U+10FFFF`
  else if b = 0xF4 then some [(0x80, 0x8F), (0x80, 0xBF), (0x80, 0xBF)]
  else none

/-- One byte, read in the state of what the bytes before it still expect. -/
def utf8Step : List (ℕ × ℕ) → Byte → Option (List (ℕ × ℕ))
  | [], b => utf8Tail b.val
  | (lo, hi) :: rest, b => if lo ≤ b.val ∧ b.val ≤ hi then some rest else none

/-- `utf8.Valid`. -/
def utf8Valid (bs : Bytes) : Bool := bs.foldlM utf8Step [] = some []

theorem utf8Valid_of_ascii {bs : Bytes} (h : ∀ b ∈ bs, b.val < 128) : utf8Valid bs = true := by
  rw [utf8Valid, decide_eq_true_eq]
  induction bs with
  | nil => rfl
  | cons b bs ih =>
      have hstep : utf8Step [] b = some [] := if_pos (h b List.mem_cons_self)
      rw [List.foldlM_cons, hstep]
      exact ih fun b' hb' => h b' (List.mem_cons_of_mem b hb')

/-- A value of the map type `map[string]V`. -/
abbrev GoMap (V : Type) := AList fun _ : GoString => V

section Maps

variable {V : Type} {m : GoMap V} {k k' : GoString} {v v' : V}

theorem lookup_erase_eq_some :
    (m.erase k).lookup k' = some v ↔ k' ≠ k ∧ m.lookup k' = some v := by
  by_cases hk : k' = k
  · rw [hk, AList.lookup_erase]
    simp
  · rw [AList.lookup_erase_ne hk]
    simp [hk]

theorem lookup_insert_eq_some :
    (m.insert k v).lookup k' = some v' ↔ k' = k ∧ v = v' ∨ k' ≠ k ∧ m.lookup k' = some v' := by
  by_cases hk : k' = k
  · rw [hk, AList.lookup_insert]
    simp
  · rw [AList.lookup_insert_ne hk]
    simp [hk]

end Maps

/-- The choices an implementation of Go makes. Both fields come with what the
language promises about them, so a runtime that drops or invents elements
cannot be built. -/
structure Runtime where
  rangeMap : {α : Type} → List α → List α
  rangeMap_perm : ∀ {α : Type} (l : List α), (rangeMap l).Perm l
  sortBy : {α κ : Type} → [LinearOrder κ] → (α → κ) → List α → List α
  sortBy_perm : ∀ {α κ : Type} [LinearOrder κ] (key : α → κ) (l : List α),
    (sortBy key l).Perm l
  sortBy_sorted : ∀ {α κ : Type} [LinearOrder κ] (key : α → κ) (l : List α),
    (sortBy key l).Pairwise fun a b => key a ≤ key b

namespace Runtime

variable {α κ : Type} [LinearOrder κ]

/-- The runtime that ranges in insertion order and sorts by insertion. -/
def canonical : Runtime where
  rangeMap := id
  rangeMap_perm := fun l => List.Perm.refl l
  sortBy := fun key l => l.insertionSort fun a b => key a ≤ key b
  sortBy_perm := fun key l => List.perm_insertionSort _ l
  sortBy_sorted := by
    intro α κ _ key l
    have htotal : Std.Total fun a b : α => key a ≤ key b := ⟨fun a b => le_total _ _⟩
    have htrans : IsTrans α fun a b : α => key a ≤ key b := ⟨fun _ _ _ => le_trans⟩
    exact List.pairwise_insertionSort (fun a b : α => key a ≤ key b) l

/-- Distinct keys leave a sort no choice: two runtimes sort two orders of the
same elements alike. -/
theorem sortBy_eq_of_perm (rt rt' : Runtime) (key : α → κ) {l l' : List α}
    (hp : l.Perm l') (hk : (l.map key).Nodup) :
    rt.sortBy key l = rt'.sortBy key l' := by
  have hinj : ∀ a ∈ l, ∀ b ∈ l, key a = key b → a = b :=
    fun a ha b hb h => List.inj_on_of_nodup_map hk ha hb h
  -- both results are sorted orders of `l`, and with distinct keys there is only one
  refine @List.Perm.eq_of_pairwise α (fun a b => key a ≤ key b) _ _ ?_
    (rt.sortBy_sorted key l) (rt'.sortBy_sorted key l') ?_
  · intro a b ha hb hab hba
    have ha' : a ∈ l := (rt.sortBy_perm key l).subset ha
    have hb' : b ∈ l := hp.symm.subset ((rt'.sortBy_perm key l').subset hb)
    exact hinj a ha' b hb' (le_antisymm hab hba)
  · exact (rt.sortBy_perm key l).trans (hp.trans (rt'.sortBy_perm key l').symm)

/-- With distinct keys the result of a sort is strictly increasing. -/
theorem sortBy_strict (rt : Runtime) (key : α → κ) {l : List α} (h : (l.map key).Nodup) :
    (rt.sortBy key l).Pairwise fun a b => key a < key b := by
  have hnodup := (((rt.sortBy_perm key l).map key).nodup_iff).mpr h
  have hne : (rt.sortBy key l).Pairwise fun a b => key a ≠ key b := List.pairwise_map.mp hnodup
  exact (rt.sortBy_sorted key l).imp₂ (fun _ _ => lt_of_le_of_ne) hne

section Maps

variable {V : Type} {m : GoMap V}

/-- A range over a map visits its values. -/
theorem mem_rangeMap_values (rt : Runtime) {v : V} :
    v ∈ (rt.rangeMap m.entries).map (fun e => e.2) ↔ ∃ k, m.lookup k = some v := by
  simp only [List.mem_map, (rt.rangeMap_perm _).mem_iff]
  constructor
  · rintro ⟨⟨k, v⟩, hmem, rfl⟩
    exact ⟨k, AList.mem_lookup_iff.mpr hmem⟩
  · rintro ⟨k, h⟩
    exact ⟨⟨k, v⟩, AList.mem_lookup_iff.mp h, rfl⟩

/-- If each value carries its key, a range over the map visits no key twice. -/
theorem nodup_rangeMap_keys (rt : Runtime) (key : V → GoString)
    (h : ∀ k v, m.lookup k = some v → key v = k) :
    (((rt.rangeMap m.entries).map fun e => e.2).map key).Nodup := by
  have hkeys : m.entries.map (fun e => key e.2) = m.keys := by
    apply List.map_congr_left
    intro e he
    exact h e.1 e.2 (AList.mem_lookup_iff.mpr he)
  rw [List.map_map]
  apply ((rt.rangeMap_perm m.entries).map _).nodup_iff.mpr
  exact hkeys ▸ m.keys_nodup

end Maps

end Runtime

section Lists

/-- The positions of a list are its head and the positions of its tail. -/
theorem forall_append_cons_iff {α : Type} {P : List α → α → Prop} {a : α} {l : List α} :
    (∀ pre x post, a :: l = pre ++ x :: post → P pre x) ↔
      P [] a ∧ ∀ pre x post, l = pre ++ x :: post → P (a :: pre) x := by
  constructor
  · intro h
    refine ⟨h [] a l rfl, ?_⟩
    rintro pre x post rfl
    exact h (a :: pre) x post rfl
  · rintro ⟨hhead, htail⟩ pre x post heq
    cases pre with
    | nil =>
        obtain ⟨rfl, _⟩ := List.cons.inj heq
        exact hhead
    | cons b pre =>
        obtain ⟨rfl, hl⟩ := List.cons.inj heq
        exact htail pre x post hl

theorem getElem?_set_of_some {α : Type} {l : List α} {i : ℕ} {a : α} (h : l[i]? = some a) (b : α) :
    (l.set i b)[i]? = some b := by
  rw [List.getElem?_set_self', h]
  rfl

/-- The elements of a list after an update at a position it has. -/
theorem getElem?_set_eq_some {α : Type} {l : List α} {i j : ℕ} {a b x : α} (h : l[i]? = some a) :
    (l.set i b)[j]? = some x ↔ i = j ∧ b = x ∨ i ≠ j ∧ l[j]? = some x := by
  by_cases hij : i = j
  · subst hij
    simp [getElem?_set_of_some h]
  · simp [List.getElem?_set_ne hij, hij]

theorem countP_set_add {α : Type} {l : List α} {i : ℕ} {a : α} (h : l[i]? = some a) (b : α)
    (p : α → Bool) :
    (l.set i b).countP p + (if p a then 1 else 0) = l.countP p + if p b then 1 else 0 := by
  obtain ⟨hlt, rfl⟩ := List.getElem?_eq_some_iff.mp h
  have hle := List.boole_getElem_le_countP (p := p) hlt
  rw [List.countP_set hlt]
  omega

/-- The elements of a list with one more at its end. -/
theorem getElem?_concat_eq_some {α : Type} {l : List α} {i : ℕ} {a x : α} :
    (l ++ [a])[i]? = some x ↔ l[i]? = some x ∨ i = l.length ∧ x = a := by
  rcases Nat.lt_trichotomy i l.length with hlt | rfl | hgt
  · simp [List.getElem?_append_left hlt, hlt.ne]
  · simp [eq_comm]
  · have hnone : (l ++ [a])[i]? = none := by
      rw [List.getElem?_eq_none]
      rw [List.length_append]
      exact hgt
    simp [hnone, hgt.ne', List.getElem?_eq_none hgt.le]

/-- The first element of a sorted list with a property is the least one. -/
theorem find?_eq_some_iff_least {α : Type} [PartialOrder α] {l : List α}
    (hsorted : l.Pairwise (· ≤ ·)) {p : α → Bool} {a : α} :
    l.find? p = some a ↔ a ∈ l ∧ p a = true ∧ ∀ b ∈ l, p b = true → a ≤ b := by
  induction l with
  | nil => simp
  | cons x l ih =>
      obtain ⟨hx, hl⟩ := List.pairwise_cons.mp hsorted
      by_cases hp : p x = true
      · rw [List.find?_cons_of_pos hp, Option.some.injEq]
        constructor
        · rintro rfl
          refine ⟨List.mem_cons_self, hp, fun b hb _ => ?_⟩
          rcases List.mem_cons.mp hb with rfl | hb
          · exact le_rfl
          · exact hx b hb
        · rintro ⟨ha, _, hleast⟩
          rcases List.mem_cons.mp ha with rfl | ha
          · rfl
          · exact le_antisymm (hx a ha) (hleast x List.mem_cons_self hp)
      · rw [List.find?_cons_of_neg hp, ih hl, List.forall_mem_cons, List.mem_cons]
        constructor
        · rintro ⟨ha, hpa, hleast⟩
          exact ⟨Or.inr ha, hpa, fun h => absurd h hp, hleast⟩
        · rintro ⟨rfl | ha, hpa, _, hleast⟩
          · exact absurd hpa hp
          · exact ⟨ha, hpa, hleast⟩

/-- An element on the right of related lists has a partner on the left. -/
theorem exists_mem_of_forall₂ {α β : Type*} {R : α → β → Prop} {l : List α} {l' : List β}
    (h : List.Forall₂ R l l') {b : β} (hb : b ∈ l') : ∃ a ∈ l, R a b := by
  induction h with
  | nil => cases hb
  | @cons a _ _ _ hR _ ih =>
      rcases List.mem_cons.mp hb with rfl | hb
      · exact ⟨a, List.mem_cons_self, hR⟩
      · obtain ⟨x, hx, hxb⟩ := ih hb
        exact ⟨x, List.mem_cons_of_mem _ hx, hxb⟩

/-- A part from the start of the list on the left is related to one on the right. -/
theorem exists_prefix_of_forall₂ {α β : Type*} {R : α → β → Prop} {l l₀ : List α} {l' : List β}
    (h : List.Forall₂ R l l') (hinitial : l₀ <+: l) :
    ∃ l₀', l₀' <+: l' ∧ List.Forall₂ R l₀ l₀' := by
  have htake := List.forall₂_take l₀.length h
  rw [← List.prefix_iff_eq_take.mp hinitial] at htake
  exact ⟨l'.take l₀.length, List.take_prefix .., htake⟩

/-- A call that succeeds for a whole list has succeeded for each element. -/
theorem exists_of_mapM_eq_some {α β : Type} {f : α → Option β} {l : List α} {bs : List β}
    (h : l.mapM f = some bs) {a : α} (ha : a ∈ l) : ∃ b, f a = some b := by
  induction l generalizing bs with
  | nil => cases ha
  | cons x l ih =>
      rw [List.mapM_cons, Option.bind_eq_bind, Option.bind_eq_some_iff] at h
      obtain ⟨y, hy, h⟩ := h
      rw [Option.bind_eq_bind, Option.bind_eq_some_iff] at h
      obtain ⟨ys, hys, _⟩ := h
      rcases List.mem_cons.mp ha with rfl | ha
      · exact ⟨y, hy⟩
      · exact ih hys ha

end Lists

end Golang

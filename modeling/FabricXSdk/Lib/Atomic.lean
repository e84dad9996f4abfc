import Mathlib.Init

/-!
# Transactions over a driver that may fail

A computation inside a transaction threads the state it has built so far and the
behaviour of the driver at the calls still to come. An error carries no state:
whoever runs the computation keeps the state it started from, which is what a
rollback does.

A computation is steady when a run that succeeds could not tell that the driver
is able to fail: the run without any failure gives the same result. Results about
successful runs are then proved for the run without failures only.

How many calls a computation makes depends on the state. `Makes` counts them, and says that
the computation succeeds exactly if none of these calls fails.
-/

namespace Atomic

variable {ε σ α β : Type}

/-- What the driver does at its next calls. Past the end every call succeeds. -/
abbrev Driver (ε : Type) := List (Option ε)

abbrev TxM (ε σ : Type) := StateT (Driver ε × σ) (Except ε)

/-- One call to the driver. A failure is reported through `wrap`. -/
def call (wrap : ε → ε) : TxM ε σ Unit := fun c =>
  match c.1 with
  | some err :: _ => .error (wrap err)
  | none :: rest => .ok ((), rest, c.2)
  | [] => .ok ((), [], c.2)

/-- The state built so far. -/
def read : TxM ε σ σ := fun c => .ok (c.2, c)

def write (s : σ) : TxM ε σ Unit := fun c => .ok ((), c.1, s)

def fail (err : ε) : TxM ε σ α := fun _ => .error err

/-- The state after a committed run, or the error of a rolled back one. -/
def commit (x : TxM ε σ Unit) (driver : Driver ε) (s : σ) : Except ε σ :=
  match x (driver, s) with
  | .ok (_, _, s') => .ok s'
  | .error err => .error err

theorem commit_eq_ok {x : TxM ε σ Unit} {driver : Driver ε} {s s' : σ} :
    commit x driver s = .ok s' ↔ ∃ driver', x (driver, s) = .ok ((), driver', s') := by
  unfold commit
  cases h : x (driver, s) with
  | error err => simp
  | ok r =>
      obtain ⟨⟨⟩, d', t⟩ := r
      simp

theorem bind_eq_ok {x : TxM ε σ α} {f : α → TxM ε σ β} {c : Driver ε × σ}
    {r : β × Driver ε × σ} :
    (x >>= f) c = .ok r ↔ ∃ a c', x c = .ok (a, c') ∧ f a c' = .ok r := by
  change Except.bind (x c) (fun p => f p.1 p.2) = .ok r ↔ _
  cases h : x c with
  | error err => simp [Except.bind]
  | ok p =>
      obtain ⟨a, c'⟩ := p
      constructor
      · intro hr
        exact ⟨a, c', rfl, hr⟩
      · rintro ⟨a', c'', heq, hr⟩
        cases heq
        exact hr

theorem commit_eq_error {x : TxM ε σ Unit} {driver : Driver ε} {s : σ} {err : ε} :
    commit x driver s = .error err ↔ x (driver, s) = .error err := by
  unfold commit
  cases h : x (driver, s) with
  | error err => simp
  | ok r => simp

theorem bind_eq_error {x : TxM ε σ α} {f : α → TxM ε σ β} {c : Driver ε × σ} {err : ε} :
    (x >>= f) c = .error err ↔
      x c = .error err ∨ ∃ a c', x c = .ok (a, c') ∧ f a c' = .error err := by
  change Except.bind (x c) (fun p => f p.1 p.2) = .error err ↔ _
  cases h : x c with
  | error err' => simp [Except.bind]
  | ok p =>
      obtain ⟨a, c'⟩ := p
      constructor
      · intro herr
        exact Or.inr ⟨a, c', rfl, herr⟩
      · rintro (herr | ⟨a', c'', heq, herr⟩)
        · cases herr
        · cases heq
          exact herr

/-- A failed call reports through its wrapper. -/
theorem exists_of_call_eq_error {wrap : ε → ε} {c : Driver ε × σ} {err : ε}
    (h : (call wrap : TxM ε σ Unit) c = .error err) : ∃ err', err = wrap err' := by
  obtain ⟨d, s⟩ := c
  match d with
  | [] => cases h
  | none :: rest => cases h
  | some err' :: rest =>
      cases h
      exact ⟨err', rfl⟩

/-- A call that succeeds leaves the state alone. -/
theorem state_of_call_eq_ok {wrap : ε → ε} {c c' : Driver ε × σ} {a : Unit}
    (h : (call wrap : TxM ε σ Unit) c = .ok (a, c')) : c'.2 = c.2 := by
  obtain ⟨d, s⟩ := c
  match d with
  | [] => cases h; rfl
  | none :: rest => cases h; rfl
  | some err :: rest => cases h

@[simp] theorem call_free (wrap : ε → ε) (s : σ) :
    (call wrap : TxM ε σ Unit) ([], s) = .ok ((), [], s) := rfl

@[simp] theorem read_run (c : Driver ε × σ) : (read : TxM ε σ σ) c = .ok (c.2, c) := rfl

@[simp] theorem write_run (s : σ) (c : Driver ε × σ) :
    (write s : TxM ε σ Unit) c = .ok ((), c.1, s) := rfl

@[simp] theorem pure_run (a : α) (c : Driver ε × σ) :
    (pure a : TxM ε σ α) c = .ok (a, c) := rfl

@[simp] theorem fail_run (err : ε) (c : Driver ε × σ) :
    (fail err : TxM ε σ α) c = .error err := rfl

/-- A run that succeeds gives the result of the run without failures. -/
def Steady (x : TxM ε σ α) : Prop :=
  ∀ d s a d' s', x (d, s) = .ok (a, d', s') → x ([], s) = .ok (a, [], s')

theorem steady_pure (a : α) : Steady (pure a : TxM ε σ α) := by
  intro d s b d' s' h
  cases h
  rfl

theorem steady_call (wrap : ε → ε) : Steady (call wrap : TxM ε σ Unit) := by
  intro d s a d' s' h
  match d with
  | [] => cases h; rfl
  | none :: rest => cases h; rfl
  | some err :: rest => cases h

theorem steady_read : Steady (read : TxM ε σ σ) := by
  intro d s a d' s' h
  cases h
  rfl

theorem steady_write (t : σ) : Steady (write t : TxM ε σ Unit) := by
  intro d s a d' s' h
  cases h
  rfl

theorem steady_fail (err : ε) : Steady (fail err : TxM ε σ α) := by
  intro d s a d' s' h
  simp at h

theorem Steady.bind {x : TxM ε σ α} {f : α → TxM ε σ β} (hx : Steady x)
    (hf : ∀ a, Steady (f a)) : Steady (x >>= f) := by
  intro d s b d' s' h
  obtain ⟨a, ⟨d₁, s₁⟩, h₁, h₂⟩ := bind_eq_ok.mp h
  -- the second part starts from the driver the first has left, and is steady from any
  exact bind_eq_ok.mpr ⟨a, ([], s₁), hx d s a d₁ s₁ h₁, hf a d₁ s₁ b d' s' h₂⟩

theorem Steady.forM {xs : List β} {f : β → TxM ε σ Unit} (hf : ∀ b, Steady (f b)) :
    Steady (forM xs f) := by
  induction xs with
  | nil => exact steady_pure ()
  | cons b rest ih => exact (hf b).bind fun _ => ih

/-- Nested loops are one loop over the concatenation of the inner lists. -/
theorem forM_flatMap {γ : Type} (xs : List β) (g : β → List γ) (f : γ → TxM ε σ Unit) :
    forM (xs.flatMap g) f = forM xs fun x => forM (g x) f := by
  induction xs with
  | nil => rfl
  | cons x rest ih => rw [List.flatMap_cons, List.forM_append, List.forM_cons, ih]

/-- A committed run is the committed run of the driver that never fails. -/
theorem Steady.commit_free {x : TxM ε σ Unit} (hx : Steady x) {driver : Driver ε} {s s' : σ}
    (h : commit x driver s = .ok s') : commit x [] s = .ok s' := by
  obtain ⟨d', h⟩ := commit_eq_ok.mp h
  exact commit_eq_ok.mpr ⟨[], hx driver s () d' s' h⟩

section Calls

/-- None of the next `n` calls to the driver fails. -/
def NoFailure (driver : Driver ε) (n : Nat) : Prop := ∀ err, some err ∉ driver.take n

instance (driver : Driver ε) (n : Nat) : Decidable (NoFailure driver n) :=
  decidable_of_iff (∀ o ∈ driver.take n, o.isNone = true) <| by
    constructor
    · intro h err hmem
      cases h _ hmem
    · intro h o hmem
      cases o with
      | none => rfl
      | some err => exact absurd hmem (h err)

/-- From state `s` the computation makes `n` calls. It fails if one of them does, and ends
with `a` in state `s'` otherwise. -/
def Makes (x : TxM ε σ α) (s : σ) (n : Nat) (a : α) (s' : σ) : Prop :=
  ∀ d, NoFailure d n ∧ x (d, s) = .ok (a, d.drop n, s') ∨
    ¬ NoFailure d n ∧ ∃ err, x (d, s) = .error err

variable {s s' s'' : σ} {a : α} {n m : Nat}

theorem noFailure_add {d : Driver ε} :
    NoFailure d (n + m) ↔ NoFailure d n ∧ NoFailure (d.drop n) m := by
  simp only [NoFailure, List.take_add, List.mem_append, not_or, forall_and]

theorem makes_pure (a : α) (s : σ) : Makes (pure a : TxM ε σ α) s 0 a s := by
  intro d
  exact Or.inl ⟨fun _ => List.not_mem_nil, rfl⟩

theorem makes_read (s : σ) : Makes (read : TxM ε σ σ) s 0 s s := by
  intro d
  exact Or.inl ⟨fun _ => List.not_mem_nil, rfl⟩

theorem makes_write (s s' : σ) : Makes (write s' : TxM ε σ Unit) s 0 () s' := by
  intro d
  exact Or.inl ⟨fun _ => List.not_mem_nil, rfl⟩

theorem makes_call (wrap : ε → ε) (s : σ) : Makes (call wrap : TxM ε σ Unit) s 1 () s := by
  intro d
  match d with
  | [] => exact Or.inl ⟨fun _ => List.not_mem_nil, rfl⟩
  | none :: rest => exact Or.inl ⟨by simp [NoFailure], rfl⟩
  | some err :: rest => exact Or.inr ⟨by simp [NoFailure], _, rfl⟩

theorem Makes.bind {x : TxM ε σ α} {f : α → TxM ε σ β} {b : β} (hx : Makes x s n a s')
    (hf : Makes (f a) s' m b s'') : Makes (x >>= f) s (n + m) b s'' := by
  intro d
  rw [noFailure_add]
  rcases hx d with ⟨hn, hok⟩ | ⟨hn, err, herr⟩
  · -- the second part meets what the first has left of the driver
    rcases hf (d.drop n) with ⟨hm, hok'⟩ | ⟨hm, err, herr⟩
    · refine Or.inl ⟨⟨hn, hm⟩, bind_eq_ok.mpr ⟨a, _, hok, ?_⟩⟩
      rw [hok', List.drop_drop]
    · exact Or.inr ⟨fun h => hm h.2, err, bind_eq_error.mpr (Or.inr ⟨a, _, hok, herr⟩)⟩
  · exact Or.inr ⟨fun h => hn h.1, err, bind_eq_error.mpr (Or.inl herr)⟩

/-- The same calls, counted in another way. -/
theorem Makes.count {x : TxM ε σ α} (hx : Makes x s n a s') (h : n = m) : Makes x s m a s' := h ▸ hx

theorem Makes.commit_eq_ok {x : TxM ε σ Unit} (hx : Makes x s n () s') {driver : Driver ε} {t : σ} :
    commit x driver s = .ok t ↔ NoFailure driver n ∧ t = s' := by
  rw [Atomic.commit_eq_ok]
  rcases hx driver with ⟨hn, hok⟩ | ⟨hn, err, herr⟩
  · rw [hok]
    simp [hn, eq_comm]
  · rw [herr]
    simp [hn]

end Calls

end Atomic

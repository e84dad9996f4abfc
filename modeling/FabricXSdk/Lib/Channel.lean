import Mathlib.Data.List.Basic

/-!
# Buffered channels

A buffered channel holds at most as many values as its capacity. A send appends to
the buffer and is not possible while it is full, a receive takes the oldest value
and is not possible while there is none. Blocking is left to the program that uses
the channel: an operation that is not possible yet is no step of it.
-/

namespace Channel

/-- A channel with its buffer, oldest value first. -/
@[ext] structure Chan (α : Type) where
  capacity : ℕ
  buffer : List α
  bounded : buffer.length ≤ capacity

variable {α : Type} {c c' : Chan α} {a : α}

def Chan.make (capacity : ℕ) : Chan α := ⟨capacity, [], Nat.zero_le _⟩

/-- Append a value, unless the buffer is full. -/
def Chan.send (c : Chan α) (a : α) : Option (Chan α) :=
  if h : c.buffer.length < c.capacity then
    some ⟨c.capacity, c.buffer ++ [a], by rw [List.length_append]; exact h⟩
  else none

/-- Take the oldest value, unless there is none. -/
def Chan.recv (c : Chan α) : Option (α × Chan α) :=
  match h : c.buffer with
  | [] => none
  | a :: rest =>
      some (a, ⟨c.capacity, rest, by
        have hb := c.bounded
        rw [h, List.length_cons] at hb
        omega⟩)

theorem Chan.send_eq_some :
    c.send a = some c' ↔ c'.capacity = c.capacity ∧ c'.buffer = c.buffer ++ [a] := by
  unfold Chan.send
  constructor
  · intro h
    split at h
    · cases h
      exact ⟨rfl, rfl⟩
    · cases h
  · rintro ⟨hcap, hbuf⟩
    -- the bound of the channel after the send leaves room for the value before it
    have hb := c'.bounded
    rw [hbuf, hcap, List.length_append, List.length_singleton] at hb
    rw [dif_pos (Nat.lt_of_succ_le hb), Option.some.injEq]
    ext1
    · exact hcap.symm
    · exact hbuf.symm

theorem Chan.send_eq_none : c.send a = none ↔ c.buffer.length = c.capacity := by
  have hb := c.bounded
  unfold Chan.send
  split
  · constructor
    · intro h
      cases h
    · intro h
      omega
  · constructor
    · intro _
      omega
    · intro _
      rfl

theorem Chan.exists_send (h : c.buffer.length < c.capacity) (a : α) : ∃ c', c.send a = some c' := by
  rw [← Option.ne_none_iff_exists', Ne, Chan.send_eq_none]
  omega

theorem Chan.recv_eq_some :
    c.recv = some (a, c') ↔ c'.capacity = c.capacity ∧ c.buffer = a :: c'.buffer := by
  unfold Chan.recv
  constructor
  · intro h
    split at h
    · cases h
    · rename_i hbuf
      cases h
      exact ⟨rfl, hbuf⟩
  · rintro ⟨hcap, hbuf⟩
    split
    · rename_i hnil
      rw [hnil] at hbuf
      cases hbuf
    · rename_i hcons
      rw [hcons] at hbuf
      obtain ⟨rfl, hrest⟩ := List.cons.inj hbuf
      rw [Option.some.injEq, Prod.mk.injEq]
      refine ⟨rfl, ?_⟩
      ext1
      · exact hcap.symm
      · exact hrest

theorem Chan.recv_eq_none : c.recv = none ↔ c.buffer = [] := by
  unfold Chan.recv
  split
  · rename_i h
    simp [h]
  · rename_i h
    simp [h]

theorem Chan.exists_recv (h : c.buffer ≠ []) : ∃ a c', c.recv = some (a, c') := by
  rw [Ne, ← Chan.recv_eq_none] at h
  obtain ⟨⟨a, c'⟩, hr⟩ := Option.ne_none_iff_exists'.mp h
  exact ⟨a, c', hr⟩

end Channel

import Mathlib.Data.Int.CardIntervalMod

/-!
# Taking turns

A counter that is increased before each use, in arithmetic modulo `w`, gives the turns of
`n` participants by its remainder. Every participant gets its share as long as the counter
does not jump where it wraps.
-/

namespace RoundRobin

variable {w n m i j : ℕ}

/-- The first `m` turns. -/
def turns (w n : ℕ) : ℕ → List ℕ
  | 0 => []
  | m + 1 => turns w n m ++ [(m + 1) % w % n]

/-- The counter does not wrap within these turns, or no turn is lost when it does. -/
theorem turn_eq (hw : n ∣ w ∨ m < w) : m % w % n = m % n := by
  rcases hw with hdvd | hlt
  · exact Nat.mod_mod_of_dvd m hdvd
  · rw [Nat.mod_eq_of_lt hlt]

/-- The turns of a participant, with turn zero, which nobody takes. -/
theorem count_turns (hw : n ∣ w ∨ m < w) (hi : i < n) :
    (turns w n m).count i + (if i = 0 then 1 else 0) = (m + 1).count (· ≡ i [MOD n]) := by
  have hmod : ∀ k, k ≡ i [MOD n] ↔ k % n = i := by
    intro k
    rw [Nat.ModEq, Nat.mod_eq_of_lt hi]
  induction m with
  | zero =>
      simp only [turns, List.count_nil, Nat.count_succ, Nat.count_zero, hmod, Nat.zero_mod]
      exact congrArg _ (if_congr eq_comm rfl rfl)
  | succ m ih =>
      have hw' : n ∣ w ∨ m < w := hw.imp id fun hlt => (Nat.lt_succ_self m).trans hlt
      rw [Nat.count_succ, ← ih hw', turns, turn_eq hw, List.count_append, List.count_singleton]
      simp only [hmod, beq_iff_eq]
      omega

/-- No two participants differ by more than one turn. -/
theorem turns_fair (hw : n ∣ w ∨ m < w) (hi : i < n) (hj : j < n) :
    (turns w n m).count i ≤ (turns w n m).count j + 1 := by
  have hn : 0 < n := (Nat.zero_le i).trans_lt hi
  have hcounti := count_turns hw hi
  have hcountj := count_turns hw hj
  rw [Nat.count_modEq_card _ hn, Nat.mod_eq_of_lt hi] at hcounti
  rw [Nat.count_modEq_card _ hn, Nat.mod_eq_of_lt hj] at hcountj
  split at hcounti <;> split at hcounti <;> split at hcountj <;> split at hcountj <;> omega

end RoundRobin

import Mathlib.Data.Nat.Basic

/-!
# Sums over a family of processes

`tally f n` adds up a number for each of the processes `0, …, n - 1`. A step of one process
changes one summand, and `tally_replace` says by how much the sum changes with it.
-/

namespace PgProxy
set_option autoImplicit false

def tally (f : Nat → Nat) : Nat → Nat
  | 0 => 0
  | n + 1 => tally f n + f n

variable {f g : Nat → Nat} {n : Nat}

theorem tally_congr (h : ∀ i < n, g i = f i) : tally g n = tally f n := by
  induction n with
  | zero => rfl
  | succ n ih => rw [tally, tally, h n (Nat.lt_succ_self n), ih fun i hi => h i (by omega)]

theorem tally_mono (h : ∀ i < n, g i ≤ f i) : tally g n ≤ tally f n := by
  induction n with
  | zero => exact Nat.le_refl _
  | succ n ih => exact Nat.add_le_add (ih fun i hi => h i (by omega)) (h n (Nat.lt_succ_self n))

theorem tally_replace {i : Nat} (hi : i < n) (h : ∀ j < n, j ≠ i → g j = f j) :
    tally g n + f i = tally f n + g i := by
  induction n with
  | zero => omega
  | succ n ih =>
    rw [tally, tally]
    by_cases hin : i = n
    · subst hin
      rw [tally_congr fun j hj => h j (by omega) (by omega)]
      omega
    · have hrest := ih (by omega) fun j hj => h j (by omega)
      have hlast := h n (Nat.lt_succ_self n) (Ne.symm hin)
      omega

/-- One summand falls by at least `k`, and the others do not change. -/
theorem tally_drop {i k : Nat} (hi : i < n) (h : ∀ j < n, j ≠ i → g j = f j)
    (hdrop : g i + k ≤ f i) : tally g n + k ≤ tally f n := by
  have := tally_replace hi h
  omega

end PgProxy

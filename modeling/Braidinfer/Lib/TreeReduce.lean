/-
The maximum of `2 ^ k` values by halving.

At width `s` value `i < s` takes the maximum of itself and value `i + s`; with the widths
`2 ^ (k - 1), …, 2, 1` value `0` ends up as the maximum of all (`isGreatest_treeMax`).
-/
import Mathlib.Algebra.Group.Nat.Defs
import Mathlib.Data.List.Range
import Mathlib.Order.Bounds.Basic
import Mathlib.Order.Interval.Set.Defs
import Mathlib.Order.MinMax

namespace Braidinfer.Lib

variable {K : Type*} [LinearOrder K]

/-- One step of width `s`. -/
def halve (s : ℕ) (a : ℕ → K) : ℕ → K := fun i => if i < s then max (a i) (a (i + s)) else a i

/-- The steps of width `2 ^ (k - 1), …, 2, 1`. -/
def treeMax : ℕ → (ℕ → K) → ℕ → K
  | 0, a => a
  | k + 1, a => treeMax k (halve (2 ^ k) a)

/-- **Value `0` is the maximum.** -/
theorem isGreatest_treeMax (k : ℕ) (a : ℕ → K) :
    IsGreatest (a '' Set.Iio (2 ^ k)) (treeMax k a 0) := by
  induction k generalizing a with
  | zero =>
      refine ⟨⟨0, by simp, rfl⟩, ?_⟩
      rintro _ ⟨i, hi, rfl⟩
      obtain rfl : i = 0 := Nat.lt_one_iff.mp hi
      exact le_rfl
  | succ k ih =>
      obtain ⟨⟨i, hi, hmax⟩, hupper⟩ := ih (halve (2 ^ k) a)
      have hpow : 2 ^ (k + 1) = 2 ^ k + 2 ^ k := by rw [Nat.pow_succ, Nat.mul_two]
      have hhalf : ∀ j < 2 ^ k, halve (2 ^ k) a j = max (a j) (a (j + 2 ^ k)) :=
        fun j hj => if_pos hj
      rw [treeMax, ← hmax]
      rw [← hmax] at hupper
      refine ⟨?_, ?_⟩
      · -- the maximum is one of the two values it was taken of
        rw [hhalf i hi]
        rcases max_choice (a i) (a (i + 2 ^ k)) with h | h
        · exact ⟨i, Set.mem_Iio.mpr (by have := Set.mem_Iio.mp hi; omega), h.symm⟩
        · exact ⟨i + 2 ^ k, Set.mem_Iio.mpr (by have := Set.mem_Iio.mp hi; omega), h.symm⟩
      · rintro _ ⟨j, hj, rfl⟩
        have hj' : j < 2 ^ (k + 1) := hj
        by_cases hlt : j < 2 ^ k
        · refine le_trans ?_ (hupper ⟨j, hlt, rfl⟩)
          rw [hhalf j hlt]
          exact le_max_left _ _
        · refine le_trans ?_ (hupper ⟨j - 2 ^ k, by simp only [Set.mem_Iio]; omega, rfl⟩)
          rw [hhalf _ (by omega), Nat.sub_add_cancel (by omega)]
          exact le_max_right _ _

end Braidinfer.Lib

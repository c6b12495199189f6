/-
Pairs of a row and a column, numbered row by row: with `k` columns, row `r` and column `c` have the
number `r * k + c`.

* `rowMajor_lt`, `rowMajor_div`, `rowMajor_mod`: the numbers of the pairs, and back;
* `rowMajor_inj`: **a number is that of one pair**;
* `flatMap_range_mul`, `flatMap_range_divMod`: a loop over the numbers is one over rows and columns.
-/
import Mathlib.Data.List.Basic
import Mathlib.Algebra.Order.Group.Nat

namespace Braidinfer.Lib

variable {α : Type*} {n k r r' c c' : ℕ}

lemma rowMajor_lt (hr : r < n) (hc : c < k) : r * k + c < n * k :=
  calc r * k + c < r * k + k := Nat.add_lt_add_left hc _
    _ = (r + 1) * k := (Nat.succ_mul r k).symm
    _ ≤ n * k := Nat.mul_le_mul_right k hr

lemma rowMajor_div (hc : c < k) : (r * k + c) / k = r := by
  rw [Nat.mul_comm, Nat.mul_add_div (Nat.zero_lt_of_lt hc), Nat.div_eq_of_lt hc, Nat.add_zero]

lemma rowMajor_mod (hc : c < k) : (r * k + c) % k = c := by
  rw [Nat.mul_comm, Nat.mul_add_mod, Nat.mod_eq_of_lt hc]

/-- **A number is that of one pair.** -/
lemma rowMajor_inj (hc : c < k) (hc' : c' < k) (h : r * k + c = r' * k + c') :
    r = r' ∧ c = c' := by
  constructor
  · calc r = (r * k + c) / k := (rowMajor_div hc).symm
      _ = (r' * k + c') / k := by rw [h]
      _ = r' := rowMajor_div hc'
  · calc c = (r * k + c) % k := (rowMajor_mod hc).symm
      _ = (r' * k + c') % k := by rw [h]
      _ = c' := rowMajor_mod hc'

/-- A loop over the numbers. -/
lemma flatMap_range_mul (n k : ℕ) (f : ℕ → List α) : (List.range (n * k)).flatMap f =
    (List.range n).flatMap fun r => (List.range k).flatMap fun c => f (r * k + c) := by
  induction n with
  | zero => rw [Nat.zero_mul]; rfl
  | succ n ih =>
      rw [Nat.succ_mul, List.range_add, List.flatMap_append, ih, List.flatMap_map,
        List.range_succ, List.flatMap_append, List.flatMap_singleton]

/-- A loop over the numbers whose body computes the pair. -/
lemma flatMap_range_divMod (n k : ℕ) (f : ℕ → ℕ → List α) :
    ((List.range (n * k)).flatMap fun v => f (v / k) (v % k)) =
      (List.range n).flatMap fun r => (List.range k).flatMap (f r) := by
  rw [flatMap_range_mul]
  refine List.flatMap_congr fun r _ => List.flatMap_congr fun c hc => ?_
  rw [rowMajor_div (List.mem_range.mp hc), rowMajor_mod (List.mem_range.mp hc)]

end Braidinfer.Lib

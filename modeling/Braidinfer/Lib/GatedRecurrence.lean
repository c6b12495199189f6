/-
Gated recurrences: states that forget a part of themselves in each step, and take in an input.

* `affine_run_eq`: a number with a gate and an input in each step, unrolled;
* `gatedDelta`: the gated delta rule: a vector that answers keys by inner products forgets a part of
  itself, and is corrected along a key by a part of what its answer lacks of a value;
* `norm_gatedDelta_zero_le`: the step is a contraction, by the factor that it forgets;
* `norm_run_le`: **the state of a run is bounded by what is left of the first and of the values**;
* `norm_run_sub_le`: **runs with the same inputs come together**, by the product of the factors.
-/
import Mathlib.Analysis.InnerProductSpace.Basic
import Mathlib.Analysis.ODE.DiscreteGronwall

namespace Braidinfer.Lib

open Finset
open scoped RealInnerProductSpace

/-! ### Numbers -/

/-- **What is left of the first value and of the inputs.** -/
lemma affine_run_eq {K : Type*} [CommSemiring K] {a b x : ℕ → K}
    (h : ∀ t, x (t + 1) = a t * x t + b t) (t : ℕ) :
    x t = x 0 * ∏ i ∈ Ico 0 t, a i + ∑ j ∈ Ico 0 t, b j * ∏ i ∈ Ico (j + 1) t, a i := by
  induction t with
  | zero => simp
  | succ t ih =>
      have hsum : ∑ j ∈ Ico 0 t, b j * ∏ i ∈ Ico (j + 1) (t + 1), a i =
          a t * ∑ j ∈ Ico 0 t, b j * ∏ i ∈ Ico (j + 1) t, a i := by
        rw [mul_sum]
        refine sum_congr rfl fun j hj => ?_
        rw [prod_Ico_succ_top (mem_Ico.mp hj).2]
        ring
      rw [h, ih, prod_Ico_succ_top (Nat.zero_le t), sum_Ico_succ_top (Nat.zero_le t), hsum,
        Ico_self, prod_empty]
      ring

/-! ### The gated delta rule -/

variable {E : Type*} [NormedAddCommGroup E] [InnerProductSpace ℝ E]

/-- `s` decayed by `α`, and corrected along `k` by a part `β` of what it lacks of `v`. -/
noncomputable def gatedDelta (α β : ℝ) (k : E) (v : ℝ) (s : E) : E :=
  α • s + (β * (v - ⟪k, α • s⟫)) • k

/-- What is asked of a step: it does not grow, and it does not correct too much. -/
structure IsGate (α β : ℝ) (k : E) : Prop where
  zero_le : 0 ≤ α
  rate_nonneg : 0 ≤ β
  rate_le : β * ‖k‖ ^ 2 ≤ 2

variable {α β v : ℝ} {k s s' : E}

/-- The value apart from the state. -/
lemma gatedDelta_eq_add : gatedDelta α β k v s = gatedDelta α β k 0 s + (β * v) • k := by
  rw [gatedDelta, gatedDelta, add_assoc, ← add_smul]
  congr 2
  ring

/-- Two states with the same input. -/
lemma gatedDelta_sub :
    gatedDelta α β k v s - gatedDelta α β k v s' = gatedDelta α β k 0 (s - s') := by
  simp only [gatedDelta, smul_sub, inner_sub_right, zero_sub, mul_neg, mul_sub, sub_smul, neg_smul]
  abel

/-- **The step is a contraction.** -/
lemma norm_gatedDelta_zero_le (h : IsGate α β k) : ‖gatedDelta α β k 0 s‖ ≤ α * ‖s‖ := by
  have hform : gatedDelta α β k 0 s = α • (s - (β * ⟪k, s⟫) • k) := by
    rw [gatedDelta, inner_smul_right, smul_sub, smul_smul, zero_sub, mul_neg, neg_smul,
      ← sub_eq_add_neg]
    congr 2
    ring
  -- the correction takes from the component along the key at most twice that component
  have hsq : ‖s - (β * ⟪k, s⟫) • k‖ ^ 2 ≤ ‖s‖ ^ 2 := by
    have hexpand : ‖s - (β * ⟪k, s⟫) • k‖ ^ 2 =
        ‖s‖ ^ 2 - β * ⟪k, s⟫ ^ 2 * (2 - β * ‖k‖ ^ 2) := by
      rw [norm_sub_sq_real, inner_smul_right, norm_smul, Real.norm_eq_abs, mul_pow, sq_abs,
        real_inner_comm]
      ring
    rw [hexpand]
    exact sub_le_self _ (mul_nonneg (mul_nonneg h.rate_nonneg (sq_nonneg _))
      (sub_nonneg.mpr h.rate_le))
  rw [hform, norm_smul, Real.norm_of_nonneg h.zero_le]
  exact mul_le_mul_of_nonneg_left (le_of_sq_le_sq hsq (norm_nonneg _)) h.zero_le

/-- The value adds at most its part along the key. -/
lemma norm_gatedDelta_le (h : IsGate α β k) :
    ‖gatedDelta α β k v s‖ ≤ α * ‖s‖ + β * ‖k‖ * |v| := by
  calc ‖gatedDelta α β k v s‖ ≤ ‖gatedDelta α β k 0 s‖ + ‖(β * v) • k‖ := by
        rw [gatedDelta_eq_add]
        exact norm_add_le _ _
    _ ≤ α * ‖s‖ + β * ‖k‖ * |v| := by
        refine add_le_add (norm_gatedDelta_zero_le h) (le_of_eq ?_)
        rw [norm_smul, Real.norm_eq_abs, abs_mul, abs_of_nonneg h.rate_nonneg]
        ring

/-! ### Runs -/

section Runs

variable {a b : ℕ → ℝ} {key : ℕ → E} {val : ℕ → ℝ} {x y : ℕ → E}

/-- **The state of a run**: what is left of the first state and of each value. -/
theorem norm_run_le (hgate : ∀ t, IsGate (a t) (b t) (key t))
    (hstep : ∀ t, x (t + 1) = gatedDelta (a t) (b t) (key t) (val t) (x t)) (t : ℕ) :
    ‖x t‖ ≤ ‖x 0‖ * ∏ i ∈ Ico 0 t, a i +
      ∑ j ∈ Ico 0 t, b j * ‖key j‖ * |val j| * ∏ i ∈ Ico (j + 1) t, a i :=
  discrete_gronwall_prod_general (u := fun t => ‖x t‖)
    (fun t _ => by
      rw [hstep]
      exact norm_gatedDelta_le (hgate t))
    (fun t _ => (hgate t).zero_le) (Nat.zero_le t)

/-- **Runs with the same inputs come together.** -/
theorem norm_run_sub_le (hgate : ∀ t, IsGate (a t) (b t) (key t))
    (hx : ∀ t, x (t + 1) = gatedDelta (a t) (b t) (key t) (val t) (x t))
    (hy : ∀ t, y (t + 1) = gatedDelta (a t) (b t) (key t) (val t) (y t)) (t : ℕ) :
    ‖x t - y t‖ ≤ ‖x 0 - y 0‖ * ∏ i ∈ Ico 0 t, a i := by
  have hdiff : ∀ t, x (t + 1) - y (t + 1) = gatedDelta (a t) (b t) (key t) 0 (x t - y t) :=
    fun t => by rw [hx, hy, gatedDelta_sub]
  have hrun := norm_run_le (x := fun t => x t - y t) hgate hdiff t
  simpa only [abs_zero, mul_zero, zero_mul, sum_const_zero, add_zero] using hrun

end Runs

end Braidinfer.Lib

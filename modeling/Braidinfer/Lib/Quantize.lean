/-
Symmetric quantization with a scale taken from a bound, rounding to nearest.

* `roundHalfEven`: rounding to nearest, ties to even (`abs_sub_roundHalfEven_le`,
  `abs_roundHalfEven_le`, `le_roundHalfEven`);
* `roundHalfAway`: ties away from zero (`abs_sub_roundHalfAway_le`, `roundHalfAway_mem`);
* `Bracket`: the search for the cell of a value between the midpoints of a codebook, and
  `Bracket.abs_sub_le`: **its codeword is within half the widest gap**;
* `quantScale n m`: the step that maps `[-m, m]` to the integers of absolute value at most `n`;
* `abs_quant_le`: such an integer needs no clamp; `abs_sub_quant_le`: **the error is at most
  half a step**;
* `maxAbs`: the bound of some values; `minOver`, `maxOver`: their range.
-/
import Mathlib.Algebra.Order.Field.Basic
import Mathlib.Algebra.Order.Floor.Ring
import Mathlib.Algebra.Ring.Int.Parity
import Mathlib.Tactic.FieldSimp
import Mathlib.Tactic.Linarith
import Mathlib.Tactic.Push
import Mathlib.Tactic.Ring

namespace Braidinfer.Lib

/-! ### The bound -/

section Bound

variable {K : Type*} [Field K] [LinearOrder K]

/-- The largest absolute value among the first `count` values, `0` if there are none. -/
def maxAbs (v : ℕ → K) : ℕ → K
  | 0 => 0
  | count + 1 => max (maxAbs v count) |v count|

variable {f : ℕ → K} {count : ℕ} {b : K}

lemma maxAbs_nonneg : 0 ≤ maxAbs f count := by
  induction count with
  | zero => exact le_rfl
  | succ count ih => exact ih.trans (le_max_left _ _)

lemma le_maxAbs {i : ℕ} (hi : i < count) : |f i| ≤ maxAbs f count := by
  induction count with
  | zero => cases hi
  | succ count ih =>
      rcases Nat.lt_succ_iff_lt_or_eq.mp hi with hlt | rfl
      · exact (ih hlt).trans (le_max_left _ _)
      · exact le_max_right _ _

lemma maxAbs_le (hb : 0 ≤ b) (hf : ∀ i < count, |f i| ≤ b) : maxAbs f count ≤ b := by
  induction count with
  | zero => exact hb
  | succ count ih =>
      exact max_le (ih fun i hi => hf i (Nat.lt_succ_of_lt hi)) (hf count (Nat.lt_succ_self _))

/-- The bound is one of the absolute values. -/
lemma maxAbs_mem [IsStrictOrderedRing K] (hpos : 0 < count) :
    ∃ i < count, maxAbs f count = |f i| := by
  induction count with
  | zero => cases hpos
  | succ count ih =>
      rw [maxAbs]
      rcases max_choice (maxAbs f count) |f count| with h | h
      · rcases Nat.eq_zero_or_pos count with rfl | hc
        · exact ⟨0, Nat.one_pos, by rw [maxAbs]; exact max_eq_right (abs_nonneg _)⟩
        · obtain ⟨i, hi, heq⟩ := ih hc
          exact ⟨i, Nat.lt_succ_of_lt hi, h.trans heq⟩
      · exact ⟨count, Nat.lt_succ_self _, h⟩

end Bound

section Range

variable {K : Type*} [LinearOrder K]

/-- The least of the first `count` values, of which there is one at least. -/
def minOver (v : ℕ → K) : ℕ → K
  | 0 => v 0
  | count + 1 => min (minOver v count) (v count)

/-- The greatest of the first `count` values. -/
def maxOver (v : ℕ → K) : ℕ → K
  | 0 => v 0
  | count + 1 => max (maxOver v count) (v count)

variable {v : ℕ → K} {count i : ℕ}

lemma minOver_le (hi : i < count) : minOver v count ≤ v i := by
  induction count with
  | zero => cases hi
  | succ count ih =>
      rcases Nat.lt_succ_iff_lt_or_eq.mp hi with hlt | rfl
      · exact (min_le_left _ _).trans (ih hlt)
      · exact min_le_right _ _

lemma le_maxOver (hi : i < count) : v i ≤ maxOver v count := by
  induction count with
  | zero => cases hi
  | succ count ih =>
      rcases Nat.lt_succ_iff_lt_or_eq.mp hi with hlt | rfl
      · exact (ih hlt).trans (le_max_left _ _)
      · exact le_max_right _ _

lemma minOver_mem (v : ℕ → K) (count : ℕ) : ∃ i, minOver v count = v i := by
  induction count with
  | zero => exact ⟨0, rfl⟩
  | succ count ih =>
      rw [minOver]
      rcases min_choice (minOver v count) (v count) with h | h
      · rw [h]
        exact ih
      · exact ⟨count, h⟩

lemma maxOver_mem (v : ℕ → K) (count : ℕ) : ∃ i, maxOver v count = v i := by
  induction count with
  | zero => exact ⟨0, rfl⟩
  | succ count ih =>
      rw [maxOver]
      rcases max_choice (maxOver v count) (v count) with h | h
      · rw [h]
        exact ih
      · exact ⟨count, h⟩

end Range

/-! ### Codebooks -/

section Search

variable {K : Type*} [LinearOrder K] {b : ℕ → K} {n i w : ℕ} {x : K}

/-- The boundaries at both ends of the `w` cells from `i` on, of `n` cells, have `x` between
them. -/
structure Bracket (b : ℕ → K) (n : ℕ) (x : K) (i w : ℕ) : Prop where
  lower : i = 0 ∨ b (i - 1) ≤ x
  upper : i + w = n ∨ x < b (i + w - 1)

/-- A probe in the middle halves the range. -/
lemma Bracket.step (hx : Bracket b n x i (w + w)) :
    Bracket b n x (i + if b (i + w - 1) ≤ x then w else 0) w := by
  split_ifs with hle
  · refine ⟨.inr hle, ?_⟩
    rw [Nat.add_assoc]
    exact hx.upper
  · rw [Nat.add_zero]
    exact ⟨hx.lower, .inr (not_le.mp hle)⟩

end Search

section Codebook

variable {K : Type*} [Field K] [LinearOrder K] [IsStrictOrderedRing K] {t : ℕ → K} {n i : ℕ}
  {x h : K}

/-- The midpoint of two codewords. -/
def midpoint (t : ℕ → K) (i : ℕ) : K := (t i + t (i + 1)) / 2

/-- **A value is within half the widest gap of the codeword of its cell.** -/
theorem Bracket.abs_sub_le (hx : Bracket (midpoint t) n x i 1) (hlow : t 0 ≤ x)
    (hhigh : x ≤ t (n - 1)) (hh : 0 ≤ h) (hgap : ∀ j, j + 1 < n → t (j + 1) - t j ≤ 2 * h)
    (hi : i < n) : |x - t i| ≤ h := by
  rw [abs_le]
  constructor
  · rcases Nat.eq_zero_or_pos i with rfl | hpos
    · linarith
    · have hb := hx.lower.resolve_left (Nat.pos_iff_ne_zero.mp hpos)
      have hstep := hgap (i - 1) (by omega)
      rw [midpoint] at hb
      rw [Nat.sub_add_cancel hpos] at hb hstep
      linarith
  · rcases hx.upper with hend | hb
    · rw [show i = n - 1 by omega]
      linarith
    · rw [Nat.add_sub_cancel] at hb
      have hlast : i + 1 < n ∨ i = n - 1 := by omega
      rcases hlast with hlt | rfl
      · have hstep := hgap i hlt
        rw [midpoint] at hb
        linarith
      · linarith

end Codebook

variable {K : Type*} [Field K] [LinearOrder K] [FloorRing K]

/-- Rounding to nearest, ties to even. -/
def roundHalfEven (x : K) : ℤ :=
  if x - ⌊x⌋ < 1 / 2 then ⌊x⌋
  else if 1 / 2 < x - ⌊x⌋ then ⌊x⌋ + 1
  else if ⌊x⌋ % 2 = 0 then ⌊x⌋ else ⌊x⌋ + 1

/-- The step that maps `[-m, m]` to the integers of absolute value at most `n`. -/
def quantScale (n : ℕ) (m : K) : K := if 0 < m then m / n else 1

/-! ### Rounding -/

/-- The result is the nearer neighbour, or the even one. -/
lemma roundHalfEven_spec (x : K) :
    (roundHalfEven x = ⌊x⌋ ∧ (x - ⌊x⌋ < 1 / 2 ∨ x - ⌊x⌋ = 1 / 2 ∧ ⌊x⌋ % 2 = 0)) ∨
      (roundHalfEven x = ⌊x⌋ + 1 ∧ (1 / 2 < x - ⌊x⌋ ∨ x - ⌊x⌋ = 1 / 2 ∧ ⌊x⌋ % 2 = 1)) := by
  rw [roundHalfEven]
  split_ifs with hlt hgt heven
  · exact .inl ⟨rfl, .inl hlt⟩
  · exact .inr ⟨rfl, .inl hgt⟩
  · exact .inl ⟨rfl, .inr ⟨le_antisymm (not_lt.mp hgt) (not_lt.mp hlt), heven⟩⟩
  · exact .inr ⟨rfl, .inr ⟨le_antisymm (not_lt.mp hgt) (not_lt.mp hlt), by omega⟩⟩

/-- The result is one of the two neighbours. -/
lemma roundHalfEven_cases (x : K) :
    (roundHalfEven x = ⌊x⌋ ∧ x - ⌊x⌋ ≤ 1 / 2) ∨
      (roundHalfEven x = ⌊x⌋ + 1 ∧ 1 / 2 ≤ x - ⌊x⌋) := by
  rcases roundHalfEven_spec x with ⟨hr, hhalf⟩ | ⟨hr, hhalf⟩
  · exact .inl ⟨hr, hhalf.elim le_of_lt fun h => h.1.le⟩
  · exact .inr ⟨hr, hhalf.elim le_of_lt fun h => h.1.ge⟩

/-- Rounding does not go below an integer. -/
lemma le_roundHalfEven {x : K} {n : ℤ} (hx : (n : K) ≤ x) : n ≤ roundHalfEven x := by
  have hfloor : n ≤ ⌊x⌋ := Int.le_floor.mpr hx
  rcases roundHalfEven_cases x with ⟨hr, -⟩ | ⟨hr, -⟩ <;> omega

variable [IsStrictOrderedRing K]

lemma abs_sub_roundHalfEven_le (x : K) : |x - roundHalfEven x| ≤ 1 / 2 := by
  have hle := Int.floor_le x
  have hlt := Int.lt_floor_add_one x
  rw [abs_le]
  rcases roundHalfEven_cases x with ⟨hr, hhalf⟩ | ⟨hr, hhalf⟩
  · rw [hr]
    constructor <;> linarith
  · rw [hr]
    push_cast
    constructor <;> linarith

/-- Rounding does not leave a range of integers. -/
lemma abs_roundHalfEven_le {x : K} {n : ℕ} (hx : |x| ≤ n) : |roundHalfEven x| ≤ n := by
  obtain ⟨hlow, hhigh⟩ := abs_le.mp hx
  have hfloor : -(n : ℤ) ≤ ⌊x⌋ := Int.le_floor.mpr (by push_cast; exact hlow)
  rw [abs_le]
  rcases roundHalfEven_cases x with ⟨hr, -⟩ | ⟨hr, hhalf⟩
  · rw [hr]
    exact ⟨hfloor, Int.floor_le_iff.mpr (by push_cast; linarith)⟩
  · -- the upper neighbour is not past `n`, since `x` is past the lower one
    have hlt : ⌊x⌋ < (n : ℤ) := by
      rw [Int.floor_lt]
      push_cast
      refine lt_of_le_of_ne hhigh fun heq => ?_
      rw [heq, Int.floor_natCast] at hhalf
      norm_num at hhalf
    rw [hr]
    omega

/-- Rounding to nearest, ties away from zero. -/
def roundHalfAway (x : K) : ℤ := if 0 ≤ x then ⌊x + 1 / 2⌋ else -⌊-x + 1 / 2⌋

lemma abs_sub_roundHalfAway_le (x : K) : |x - roundHalfAway x| ≤ 1 / 2 := by
  rw [roundHalfAway]
  split_ifs
  · have hle := Int.floor_le (x + 1 / 2)
    have hlt := Int.lt_floor_add_one (x + 1 / 2)
    rw [abs_le]
    constructor <;> linarith
  · have hle := Int.floor_le (-x + 1 / 2)
    have hlt := Int.lt_floor_add_one (-x + 1 / 2)
    rw [abs_le]
    push_cast
    constructor <;> linarith

/-- Rounding does not leave a range from zero. -/
lemma roundHalfAway_mem {x : K} {n : ℤ} (hx : 0 ≤ x) (hn : x ≤ n) :
    0 ≤ roundHalfAway x ∧ roundHalfAway x ≤ n := by
  rw [roundHalfAway, if_pos hx]
  constructor
  · exact Int.floor_nonneg.mpr (by linarith)
  · rw [← Int.lt_add_one_iff, Int.floor_lt]
    push_cast
    linarith

/-! ### One stage -/

variable {v m : K} {n : ℕ}

lemma quantScale_pos (hn : 0 < n) : 0 < quantScale n m := by
  rw [quantScale]
  split_ifs with hm
  · exact div_pos hm (by exact_mod_cast hn)
  · exact one_pos

/-- **No clamp is needed**: the integers are in range. -/
theorem abs_quant_le (hn : 0 < n) (hv : |v| ≤ m) :
    |roundHalfEven (v * (1 / quantScale n m))| ≤ n := by
  have hn' : (0 : K) < n := by exact_mod_cast hn
  refine abs_roundHalfEven_le ?_
  have hpos := quantScale_pos (m := m) hn
  rw [mul_one_div, abs_div, abs_of_pos hpos, div_le_iff₀ hpos, quantScale]
  split_ifs with hm
  · rwa [mul_div_cancel₀ _ hn'.ne']
  · linarith

/-- **The error is at most half a step.** -/
theorem abs_sub_quant_le (hn : 0 < n) (hv : |v| ≤ m) :
    |v - roundHalfEven (v * (1 / quantScale n m)) * quantScale n m| ≤ m / (2 * n) := by
  have hn' : (0 : K) < n := by exact_mod_cast hn
  have hpos := quantScale_pos (m := m) hn
  set s := quantScale n m with hs
  have hround := abs_sub_roundHalfEven_le (v * (1 / s))
  rcases lt_or_ge 0 m with hm | hm
  · have hstep : s = m / n := if_pos hm
    calc |v - roundHalfEven (v * (1 / s)) * s|
        = |v * (1 / s) - roundHalfEven (v * (1 / s))| * s := by
          rw [← abs_of_pos hpos, ← abs_mul, abs_of_pos hpos, sub_mul, mul_assoc,
            one_div_mul_cancel hpos.ne', mul_one]
      _ ≤ 1 / 2 * s := mul_le_mul_of_nonneg_right hround hpos.le
      _ = m / (2 * n) := by rw [hstep, div_mul_div_comm, one_mul]
  · -- the bound is `0`, and so is the value
    have hzero : v = 0 := abs_nonpos_iff.mp (hv.trans hm)
    have hm' : m = 0 := le_antisymm hm ((abs_nonneg v).trans hv)
    subst hzero
    have hr : roundHalfEven (0 : K) = 0 := by simp [roundHalfEven]
    simp [hr, hm']

end Braidinfer.Lib

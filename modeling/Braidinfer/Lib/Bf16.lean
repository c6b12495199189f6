/-
The bf16 format: a sign, eight bits of exponent, seven bits of fraction.

The patterns without the sign, in order, are the magnitudes in order; rounding a number to bf16 is
rounding the position between the two patterns next to it, to nearest, ties to even.

* `magnitude`, `value`: what a pattern stands for (a pattern with all bits of the exponent set is no
  number; it gets the value that the formula gives it);
* `ofRat`: rounding to a pattern; `magnitude_eq`, `code_eq`: both are those of the format
  `bfloat16`;
* `value_ofRat_value`: **a bf16 number is kept**;
* `abs_value_ofRat_sub_le`: **the error of a number in the normal range is at most one part in
  256**.
-/
import Braidinfer.Lib.BinaryFormat

namespace Braidinfer.Lib.Bf16

open BinaryFormat (bfloat16)

/-- The number that the lower 15 bits of a pattern stand for. -/
def magnitude (c : ℕ) : ℚ :=
  if c / 128 = 0 then (c % 128 : ℕ) * 2 ^ (-133 : ℤ)
  else (128 + c % 128 : ℕ) * 2 ^ ((c / 128 : ℕ) - 134 : ℤ)

/-- The number that a pattern stands for. -/
def value (x : ℕ) : ℚ :=
  if x / 2 ^ 15 % 2 = 0 then magnitude (x % 2 ^ 15) else -magnitude (x % 2 ^ 15)

/-- The exponent of the spacing at a number: that of its leading bit, or the least one. -/
def exponent (x : ℚ) : ℤ := max (Int.log 2 |x|) (-126)

/-- The integer that a number is rounded to, in units of the spacing. -/
def significand (x : ℚ) : ℤ := roundHalfEven (|x| / 2 ^ (exponent x - 7))

/-- The lower 15 bits of the pattern of a number. -/
def code (x : ℚ) : ℕ :=
  if x = 0 then 0 else (exponent x + 126).toNat * 128 + (significand x).toNat

/-- The pattern of a number. -/
def ofRat (x : ℚ) : ℕ := (if x < 0 then 2 ^ 15 else 0) + code x

/-! ### The format -/

variable {x : ℚ} {c p : ℕ}

lemma magnitude_eq (c : ℕ) : magnitude c = bfloat16.magnitude c := by
  rw [magnitude, BinaryFormat.magnitude, show bfloat16.frac = 7 from rfl,
    show bfloat16.least = -133 from rfl]
  refine if_congr Iff.rfl rfl ?_
  rw [show ((c / 128 : ℕ) : ℤ) - 134 = (c / 128 : ℕ) + -133 - 1 by ring]
  rfl

lemma code_eq (x : ℚ) : code x = bfloat16.code |x| := by
  rw [code, BinaryFormat.code]
  exact if_congr abs_eq_zero.symm rfl rfl

lemma magnitude_nonneg (c : ℕ) : 0 ≤ magnitude c := by
  rw [magnitude_eq]
  exact bfloat16.magnitude_nonneg c

lemma abs_value (x : ℕ) : |value x| = magnitude (x % 2 ^ 15) := by
  rw [value]
  split_ifs
  · exact abs_of_nonneg (magnitude_nonneg _)
  · rw [abs_neg, abs_of_nonneg (magnitude_nonneg _)]

/-- A pattern without a sign. -/
lemma value_of_lt (hc : c < 2 ^ 15) : value c = magnitude c := by
  rw [value, if_pos (by omega), Nat.mod_eq_of_lt hc]

lemma abs_value_lt (x : ℕ) : |value x| < 2 ^ (129 : ℤ) := by
  have htop : bfloat16.magnitude (255 * 2 ^ 7 + 2 ^ 7) = (2 ^ 7 : ℕ) * 2 ^ ((255 : ℕ) + -133 : ℤ) :=
    BinaryFormat.magnitude_code (by decide) (.inl le_rfl)
  calc |value x| = bfloat16.magnitude (x % 2 ^ 15) := by rw [abs_value, magnitude_eq]
    _ < bfloat16.magnitude (255 * 2 ^ 7 + 2 ^ 7) :=
        bfloat16.magnitude_strictMono (Nat.mod_lt x (by decide))
    _ = 2 ^ (129 : ℤ) := by rw [htop]; norm_num

/-! ### Rounding -/

/-- A pattern that is rounded to has its magnitude and the sign of the number. -/
lemma value_ofRat (hcode : code x < 2 ^ 15) :
    value (ofRat x) = (if x < 0 then -1 else 1) * magnitude (code x) := by
  rw [value, ofRat]
  by_cases hneg : x < 0
  · rw [if_pos hneg, if_neg (by omega), if_pos hneg, neg_one_mul,
      Nat.add_mod_left, Nat.mod_eq_of_lt hcode]
  · rw [if_neg hneg, if_pos (by omega), if_neg hneg, one_mul, Nat.zero_add,
      Nat.mod_eq_of_lt hcode]

lemma ofRat_lt (hcode : code x < 2 ^ 15) : ofRat x < 2 ^ 16 := by
  rw [ofRat]
  split_ifs <;> omega

/-- The pattern of a number that is not too large. -/
lemma code_lt (hx : |x| < 2 ^ (127 : ℤ)) : code x < 2 ^ 15 := by
  have hinf : bfloat16.magnitude bfloat16.inf = 2 ^ (128 : ℤ) := BinaryFormat.magnitude_inf _
  have hle : |x| ≤ bfloat16.magnitude bfloat16.inf := by
    rw [hinf]
    exact hx.le.trans (zpow_le_zpow_right₀ one_le_two (by decide))
  rw [code_eq]
  exact (BinaryFormat.code_le (abs_nonneg x) hle).trans_lt (by decide)

/-- **The error** of a number in the normal range is at most one part in 256. -/
theorem abs_value_ofRat_sub_le (hlow : 2 ^ (-126 : ℤ) ≤ |x|) (hhigh : |x| < 2 ^ (127 : ℤ)) :
    |value (ofRat x) - x| ≤ |x| / 256 := by
  have hpos : 0 < |x| := lt_of_lt_of_le (by positivity) hlow
  have hspace : (2 : ℚ) ^ (bfloat16.exponent |x| - bfloat16.frac) ≤ |x| / 2 ^ 7 :=
    BinaryFormat.spacing_le hlow
  have herr : abs (magnitude (code x) - |x|) ≤ |x| / 256 := by
    calc abs (magnitude (code x) - |x|)
        = abs (bfloat16.magnitude (bfloat16.code |x|) - |x|) := by rw [magnitude_eq, code_eq]
      _ ≤ 2 ^ (bfloat16.exponent |x| - bfloat16.frac) / 2 :=
          bfloat16.abs_magnitude_code_sub_le hpos
      _ ≤ |x| / 2 ^ 7 / 2 := by linarith
      _ = |x| / 256 := by ring
  rw [value_ofRat (code_lt hhigh)]
  by_cases hneg : x < 0
  · rw [if_pos hneg, neg_one_mul]
    rw [abs_of_neg hneg] at herr ⊢
    rwa [← abs_neg, neg_sub, sub_neg_eq_add, add_comm, ← sub_neg_eq_add]
  · rw [if_neg hneg, one_mul]
    rwa [abs_of_nonneg (not_lt.mp hneg)] at herr ⊢

/-! ### Numbers of the format -/

/-- A number of the format has its own pattern, up to the sign of zero. -/
lemma code_value (p : ℕ) : code (value p) = p % 2 ^ 15 := by
  rw [code_eq, abs_value, magnitude_eq, BinaryFormat.code_magnitude]

lemma code_value_lt (p : ℕ) : code (value p) < 2 ^ 15 := by
  rw [code_value]
  exact Nat.mod_lt _ (by decide)

/-- **A bf16 number is kept.** -/
theorem value_ofRat_value (p : ℕ) : value (ofRat (value p)) = value p := by
  have hmag := magnitude_nonneg (p % 2 ^ 15)
  rw [value_ofRat (code_value_lt p), code_value]
  -- the sign of the number is that of its pattern, unless it is zero
  by_cases hsign : p / 2 ^ 15 % 2 = 0
  · rw [value, if_pos hsign, if_neg (not_lt.mpr hmag), one_mul]
  · rw [value, if_neg hsign]
    rcases hmag.eq_or_lt with hzero | hpos
    · rw [← hzero, mul_zero, neg_zero]
    · rw [if_pos (neg_neg_of_pos hpos), neg_one_mul]

end Braidinfer.Lib.Bf16

/-
Binary floating-point formats: a sign, bits of exponent, bits of fraction.

The patterns without the sign, in order, are the magnitudes in order; so rounding a number is to
choose one of the two patterns next to it, and a number of one format is a number of a finer one.

* `BinaryFormat`, `magnitude`: a format, and what a pattern without its sign stands for;
* `Nearest`: the pattern nearest to a number, ties to even; `Nearest.unique`;
* `code`, `nearest_code`: **rounding gives the nearest pattern**;
  `abs_magnitude_code_sub_le`: **the error is at most half the spacing**;
* `code_magnitude`: **a number of the format is kept**;
* `nearest_narrow`: **adding half less one and the last bit that stays, and then dropping the lower
  bits, rounds to nearest, ties to even**;
* `mul`, `div`, `add`, `negate`, `convert`: arithmetic on patterns; `IsNumber.mul`,
  `IsNumber.div`, `IsNumber.add`: results that need no rounding;
* `representable_magnitude`: **the numbers of a format are numbers of a wider one**;
* `binary32`, `binary16`, `bfloat16`, `e4m3`, `e5m2`: formats.
-/
import Braidinfer.Lib.Quantize
import Mathlib.Data.Int.Log
import Mathlib.Algebra.Order.Field.Power
import Mathlib.Algebra.Order.Field.Rat
import Mathlib.Data.Rat.Floor
import Mathlib.Order.Monotone.Basic
import Mathlib.Tactic.NormNum
import Mathlib.Tactic.Positivity

namespace Braidinfer.Lib

/-- A format: the numbers of bits of the fraction and of the exponent. -/
structure BinaryFormat where
  frac : ℕ
  exp : ℕ
  frac_pos : 0 < frac
  exp_pos : 0 < exp
deriving DecidableEq

namespace BinaryFormat

variable (f : BinaryFormat)

/-- What the exponent is stored with. -/
def bias : ℕ := 2 ^ (f.exp - 1) - 1

/-- The exponent of the least magnitude. -/
def least : ℤ := 1 - f.bias - f.frac

/-- The number that a pattern without its sign stands for.  Patterns with all bits of the exponent
set have their place in the order. -/
def magnitude (c : ℕ) : ℚ :=
  if c / 2 ^ f.frac = 0 then (c % 2 ^ f.frac : ℕ) * 2 ^ f.least
  else (2 ^ f.frac + c % 2 ^ f.frac : ℕ) * 2 ^ ((c / 2 ^ f.frac : ℕ) + f.least - 1)

/-- The pattern nearest to a number, ties to even. -/
structure Nearest (x : ℚ) (c : ℕ) : Prop where
  le : ∀ c', |f.magnitude c - x| ≤ |f.magnitude c' - x|
  even : ∀ c', c' ≠ c → |f.magnitude c' - x| = |f.magnitude c - x| → c % 2 = 0

/-- The exponent of the spacing at a number: that of its leading bit, or the least one. -/
def exponent (x : ℚ) : ℤ := max (Int.log 2 x) (1 - f.bias)

/-- The integer that a number is rounded to, in units of the spacing. -/
def significand (x : ℚ) : ℤ := roundHalfEven (x / 2 ^ (f.exponent x - f.frac))

/-- Rounding to a pattern without a sign. -/
def code (x : ℚ) : ℕ :=
  if x = 0 then 0
  else (f.exponent x - (1 - f.bias)).toNat * 2 ^ f.frac + (f.significand x).toNat

/-! ### Patterns in order -/

section Order

variable {f} {n m c k : ℕ} {x : ℚ}

/-- The patterns of one exponent, and the first of the next. -/
lemma magnitude_code (hm : m ≤ 2 * 2 ^ f.frac) (h : 2 ^ f.frac ≤ m ∨ n = 0) :
    f.magnitude (n * 2 ^ f.frac + m) = m * 2 ^ (n + f.least) := by
  have hpos : 0 < 2 ^ f.frac := Nat.two_pow_pos _
  have hmod : (n * 2 ^ f.frac + m) % 2 ^ f.frac = m % 2 ^ f.frac := by
    rw [Nat.add_comm, Nat.add_mul_mod_self_right]
  have hdiv : (n * 2 ^ f.frac + m) / 2 ^ f.frac = n + m / 2 ^ f.frac := by
    rw [Nat.add_comm, Nat.add_mul_div_right _ _ hpos, Nat.add_comm]
  rw [magnitude, hmod, hdiv]
  rcases Nat.lt_or_ge m (2 ^ f.frac) with hlt | hge
  · obtain rfl : n = 0 := h.resolve_left (not_le.mpr hlt)
    rw [Nat.div_eq_of_lt hlt, Nat.mod_eq_of_lt hlt, if_pos rfl, Nat.cast_zero, zero_add]
  rcases Nat.lt_or_eq_of_le hm with hlt | rfl
  · have hone : m / 2 ^ f.frac = 1 := by
      rw [Nat.div_eq_iff hpos]
      omega
    have hrest : 2 ^ f.frac + m % 2 ^ f.frac = m := by
      have := Nat.div_add_mod m (2 ^ f.frac)
      rw [hone] at this
      omega
    rw [hone, if_neg (Nat.succ_ne_zero n), hrest]
    congr 2
    push_cast
    ring
  · -- the significand has gone up to the next power of two
    rw [Nat.mul_div_cancel _ hpos, Nat.mul_mod_left, if_neg (Nat.succ_ne_zero (n + 1)),
      Nat.add_zero]
    have hstep : ((n + 2 : ℕ) : ℤ) + f.least - 1 = (n + f.least) + 1 := by push_cast; ring
    rw [hstep, zpow_add_one₀ two_ne_zero]
    push_cast
    ring

/-- A pattern without its leading bit. -/
lemma magnitude_of_lt (hc : c < 2 ^ f.frac) : f.magnitude c = c * 2 ^ f.least := by
  rw [magnitude, Nat.div_eq_of_lt hc, Nat.mod_eq_of_lt hc, if_pos rfl]

/-- A pattern is a place among the patterns of an exponent. -/
lemma exists_code (f : BinaryFormat) (c : ℕ) :
    ∃ n m, c = n * 2 ^ f.frac + m ∧ m < 2 * 2 ^ f.frac ∧ (2 ^ f.frac ≤ m ∨ n = 0) := by
  rcases Nat.lt_or_ge c (2 ^ f.frac) with hlt | hge
  · exact ⟨0, c, by omega, by omega, .inr rfl⟩
  · have hpos : 0 < 2 ^ f.frac := Nat.two_pow_pos _
    have hdiv : 1 ≤ c / 2 ^ f.frac := (Nat.one_le_div_iff hpos).mpr hge
    have hmod := Nat.mod_lt c hpos
    refine ⟨c / 2 ^ f.frac - 1, 2 ^ f.frac + c % 2 ^ f.frac, ?_, by omega, .inl (by omega)⟩
    calc c = c / 2 ^ f.frac * 2 ^ f.frac + c % 2 ^ f.frac := by
          rw [Nat.mul_comm]
          exact (Nat.div_add_mod c _).symm
      _ = (c / 2 ^ f.frac - 1 + 1) * 2 ^ f.frac + c % 2 ^ f.frac := by rw [Nat.sub_add_cancel hdiv]
      _ = (c / 2 ^ f.frac - 1) * 2 ^ f.frac + (2 ^ f.frac + c % 2 ^ f.frac) := by ring

/-- Two patterns in a row are two multiples in a row of a spacing. -/
lemma exists_spacing (f : BinaryFormat) (c : ℕ) : ∃ (m : ℕ) (e : ℤ), f.least ≤ e ∧
    m < 2 * 2 ^ f.frac ∧ f.magnitude c = m * 2 ^ e ∧ f.magnitude (c + 1) = (m + 1) * 2 ^ e := by
  obtain ⟨n, m, rfl, hm, hlead⟩ := exists_code f c
  refine ⟨m, n + f.least, by omega, hm, magnitude_code hm.le hlead, ?_⟩
  rw [Nat.add_assoc, magnitude_code hm (hlead.imp_left fun h => h.trans (Nat.le_succ m))]
  push_cast
  rfl

lemma magnitude_strictMono (f : BinaryFormat) : StrictMono f.magnitude := by
  refine strictMono_nat_of_lt_succ fun c => ?_
  obtain ⟨m, e, -, -, hc, hsucc⟩ := exists_spacing f c
  rw [hc, hsucc]
  exact mul_lt_mul_of_pos_right (lt_add_one _) (by positivity)

@[simp]
lemma magnitude_zero (f : BinaryFormat) : f.magnitude 0 = 0 := by
  rw [magnitude, Nat.zero_div, Nat.zero_mod, if_pos rfl, Nat.cast_zero, zero_mul]

lemma magnitude_nonneg (f : BinaryFormat) (c : ℕ) : 0 ≤ f.magnitude c := by
  rw [← f.magnitude_zero]
  exact f.magnitude_strictMono.monotone (Nat.zero_le c)

lemma magnitude_eq_zero : f.magnitude c = 0 ↔ c = 0 := by
  rw [← f.magnitude_zero]
  exact f.magnitude_strictMono.injective.eq_iff

/-! ### Nearest patterns -/

lemma nearest_self (f : BinaryFormat) (c : ℕ) : f.Nearest (f.magnitude c) c := by
  refine ⟨fun c' => ?_, fun c' hne heq => ?_⟩
  · rw [sub_self, abs_zero]
    exact abs_nonneg _
  · rw [sub_self, abs_zero, abs_eq_zero, sub_eq_zero] at heq
    exact absurd (f.magnitude_strictMono.injective heq) hne

/-- Of the two patterns next to a number the nearer one is the nearest, or the even one. -/
lemma nearest_of_between (hlow : f.magnitude k ≤ x) (hhigh : x ≤ f.magnitude (k + 1))
    (hc : (c = k ∧ (x - f.magnitude k < f.magnitude (k + 1) - x ∨
        x - f.magnitude k = f.magnitude (k + 1) - x ∧ k % 2 = 0)) ∨
      (c = k + 1 ∧ (f.magnitude (k + 1) - x < x - f.magnitude k ∨
        f.magnitude (k + 1) - x = x - f.magnitude k ∧ k % 2 = 1))) : f.Nearest x c := by
  have hmono := f.magnitude_strictMono
  -- nothing below the lower neighbour or above the upper one is as near
  have hdist : ∀ c', (c' ≤ k ∧ |f.magnitude c' - x| = x - f.magnitude c') ∨
      (k + 1 ≤ c' ∧ |f.magnitude c' - x| = f.magnitude c' - x) := by
    intro c'
    rcases Nat.lt_or_ge k c' with hlt | hge
    · refine .inr ⟨hlt, abs_of_nonneg ?_⟩
      have := hmono.monotone (show k + 1 ≤ c' from hlt)
      linarith
    · refine .inl ⟨hge, ?_⟩
      have := hmono.monotone hge
      rw [abs_of_nonpos (by linarith)]
      ring
  have hk : |f.magnitude k - x| = x - f.magnitude k := by
    rw [abs_of_nonpos (by linarith)]
    ring
  have hk1 : |f.magnitude (k + 1) - x| = f.magnitude (k + 1) - x :=
    abs_of_nonneg (by linarith)
  rcases hc with ⟨rfl, hnear⟩ | ⟨rfl, hnear⟩
  · have hle : x - f.magnitude c ≤ f.magnitude (c + 1) - x :=
      hnear.elim le_of_lt fun h => h.1.le
    refine ⟨fun c' => ?_, fun c' hne heq => ?_⟩
    · rw [hk]
      rcases hdist c' with ⟨hc', h⟩ | ⟨hc', h⟩ <;> rw [h]
      · have := hmono.monotone hc'
        linarith
      · have := hmono.monotone hc'
        linarith
    · rw [hk] at heq
      rcases hdist c' with ⟨hc', h⟩ | ⟨hc', h⟩ <;> rw [h] at heq
      · have := hmono (lt_of_le_of_ne hc' hne)
        linarith
      · have := hmono.monotone hc'
        exact (hnear.resolve_left (by linarith)).2
  · have hle : f.magnitude (k + 1) - x ≤ x - f.magnitude k :=
      hnear.elim le_of_lt fun h => h.1.le
    refine ⟨fun c' => ?_, fun c' hne heq => ?_⟩
    · rw [hk1]
      rcases hdist c' with ⟨hc', h⟩ | ⟨hc', h⟩ <;> rw [h]
      · have := hmono.monotone hc'
        linarith
      · have := hmono.monotone hc'
        linarith
    · rw [hk1] at heq
      rcases hdist c' with ⟨hc', h⟩ | ⟨hc', h⟩ <;> rw [h] at heq
      · have := hmono.monotone hc'
        have hodd := (hnear.resolve_left (by linarith)).2
        omega
      · have := hmono (lt_of_le_of_ne hc' (Ne.symm hne))
        linarith

/-- **There is one nearest pattern.** -/
theorem Nearest.unique {c' : ℕ} (h : f.Nearest x c) (h' : f.Nearest x c') : c = c' := by
  wlog hlt : c < c' generalizing c c'
  · rcases Nat.lt_or_eq_of_le (not_lt.mp hlt) with hgt | rfl
    · exact (this h' h hgt).symm
    · rfl
  exfalso
  have heq := le_antisymm (h.le c') (h'.le c)
  have hmono := f.magnitude_strictMono
  have hlt' := hmono hlt
  -- they are on both sides of the number
  have hsides : f.magnitude c - x = -(f.magnitude c' - x) := by
    rcases abs_eq_abs.mp heq with hsame | hsame
    · linarith
    · exact hsame
  have heven := h.even c' hlt.ne' heq.symm
  have heven' := h'.even c hlt.ne heq
  -- and nothing is between them
  have hsucc : c' = c + 1 := by
    by_contra hne
    have hbetween := hmono (show c < c + 1 by omega)
    have hbetween' := hmono (show c + 1 < c' by omega)
    have hle := h.le (c + 1)
    rw [abs_of_neg (by linarith : f.magnitude c - x < 0)] at hle
    have := abs_lt.mpr ⟨(by linarith : -(-(f.magnitude c - x)) < f.magnitude (c + 1) - x),
      (by linarith : f.magnitude (c + 1) - x < -(f.magnitude c - x))⟩
    exact absurd hle (not_le.mpr this)
  omega

/-! ### Rounding -/

lemma lt_zpow_exponent (f : BinaryFormat) (x : ℚ) : x < 2 ^ (f.exponent x + 1) := by
  have hlog : x < ((2 : ℕ) : ℚ) ^ (Int.log 2 x + 1) := Int.lt_zpow_succ_log_self (by decide) _
  refine hlog.trans_le ?_
  push_cast
  exact zpow_le_zpow_right₀ (by norm_num) (by rw [exponent]; omega)

/-- A positive number in units of its spacing. -/
lemma scaled_bounds (f : BinaryFormat) (hx : 0 < x) :
    0 ≤ x / 2 ^ (f.exponent x - f.frac) ∧ x / 2 ^ (f.exponent x - f.frac) < (2 * 2 ^ f.frac : ℕ) ∧
      ((2 ^ f.frac : ℕ) ≤ x / 2 ^ (f.exponent x - f.frac) ∨ f.exponent x = 1 - f.bias) := by
  have hpos : (0 : ℚ) < 2 ^ (f.exponent x - f.frac) := by positivity
  have hsplit : (2 : ℚ) ^ f.exponent x = (2 ^ f.frac : ℕ) * 2 ^ (f.exponent x - f.frac) := by
    rw [Nat.cast_pow, Nat.cast_ofNat, ← zpow_natCast, ← zpow_add₀ two_ne_zero]
    congr 1
    ring
  refine ⟨by positivity, ?_, ?_⟩
  · rw [div_lt_iff₀ hpos, Nat.cast_mul, mul_assoc, ← hsplit, Nat.cast_ofNat,
      ← zpow_one_add₀ two_ne_zero, add_comm]
    exact lt_zpow_exponent f x
  · rcases max_choice (Int.log 2 x) (1 - f.bias) with h | h
    · left
      have hle : ((2 : ℕ) : ℚ) ^ Int.log 2 x ≤ x := Int.zpow_log_le_self (by decide) hx
      rw [le_div_iff₀ hpos, ← hsplit, exponent, h]
      exact_mod_cast hle
    · exact .inr h

/-- **Rounding gives the nearest pattern.** -/
theorem nearest_code (f : BinaryFormat) (hx : 0 ≤ x) : f.Nearest x (f.code x) := by
  rcases hx.eq_or_lt with rfl | hpos
  · have h := f.nearest_self 0
    rw [f.magnitude_zero] at h
    rwa [code, if_pos rfl]
  obtain ⟨hnonneg, hlt, hlead⟩ := scaled_bounds f hpos
  have hexp : 1 - (f.bias : ℤ) ≤ f.exponent x := le_max_right _ _
  set u : ℚ := 2 ^ (f.exponent x - f.frac) with hu
  have hupos : 0 < u := by positivity
  -- the number is `t` units, between `m` and `m + 1`
  set t := x / u with ht
  have hxt : x = t * u := by rw [ht, div_mul_cancel₀ _ hupos.ne']
  obtain ⟨m, hm⟩ : ∃ m : ℕ, ⌊t⌋ = m := Int.eq_ofNat_of_zero_le (Int.floor_nonneg.mpr hnonneg)
  have hmt : (m : ℚ) ≤ t := by
    have := Int.floor_le t
    rw [hm] at this
    exact_mod_cast this
  have htm : t < m + 1 := by
    have := Int.lt_floor_add_one t
    rw [hm] at this
    exact_mod_cast this
  have hmlt : m < 2 * 2 ^ f.frac := by
    have := hmt.trans_lt hlt
    exact_mod_cast this
  set n := (f.exponent x - (1 - f.bias)).toNat with hn
  have hmlead : 2 ^ f.frac ≤ m ∨ n = 0 := by
    rcases hlead with h | h
    · left
      have : (2 ^ f.frac : ℕ) < (m : ℚ) + 1 := h.trans_lt htm
      exact Nat.lt_succ_iff.mp (by exact_mod_cast this)
    · right
      omega
  have hunit : (2 : ℚ) ^ (n + f.least) = u := by
    rw [hu, least]
    congr 1
    omega
  have hk : f.magnitude (n * 2 ^ f.frac + m) = m * u := by
    rw [magnitude_code hmlt.le hmlead, hunit]
  have hk1 : f.magnitude (n * 2 ^ f.frac + m + 1) = (m + 1) * u := by
    rw [Nat.add_assoc, magnitude_code hmlt (hmlead.imp_left fun h => h.trans (Nat.le_succ m)),
      hunit, Nat.cast_succ]
  -- the parity of a pattern is that of its significand
  have hparity : (n * 2 ^ f.frac + m) % 2 = m % 2 := by
    obtain ⟨e, he⟩ := Nat.exists_eq_succ_of_ne_zero f.frac_pos.ne'
    rw [he, pow_succ, ← Nat.mul_assoc]
    omega
  have hcode : f.code x = n * 2 ^ f.frac + (roundHalfEven t).toNat := by
    rw [code, if_neg hpos.ne', significand]
  refine nearest_of_between (k := n * 2 ^ f.frac + m) ?_ ?_ ?_
  · rw [hk, hxt]
    exact mul_le_mul_of_nonneg_right hmt hupos.le
  · rw [hk1, hxt]
    exact mul_le_mul_of_nonneg_right htm.le hupos.le
  · rw [hcode, hk, hk1, hparity, hxt, ← sub_mul, ← sub_mul, mul_lt_mul_iff_left₀ hupos,
      mul_lt_mul_iff_left₀ hupos, mul_left_inj' hupos.ne', mul_left_inj' hupos.ne']
    rcases roundHalfEven_spec t with ⟨hr, hhalf⟩ | ⟨hr, hhalf⟩
    · left
      rw [hm] at hr hhalf
      refine ⟨by rw [hr, Int.toNat_natCast], hhalf.imp (fun h => ?_) fun h => ⟨?_, by omega⟩⟩
      · push_cast at h
        linarith
      · have := h.1
        push_cast at this
        linarith
    · right
      rw [hm] at hr hhalf
      refine ⟨by rw [hr]; omega, hhalf.imp (fun h => ?_) fun h => ⟨?_, by omega⟩⟩
      · push_cast at h
        linarith
      · have := h.1
        push_cast at this
        linarith

/-- Rounding does not go past a pattern. -/
lemma code_le (hx : 0 ≤ x) (hle : x ≤ f.magnitude c) : f.code x ≤ c := by
  by_contra hgt
  have hlt := f.magnitude_strictMono (not_le.mp hgt)
  have hnear := (nearest_code f hx).le c
  rw [abs_of_nonneg (by linarith), abs_of_nonneg (by linarith)] at hnear
  linarith

/-- **What a number is rounded to**: its significand, in units of the spacing. -/
lemma magnitude_code_eq (f : BinaryFormat) (hx : 0 < x) :
    f.magnitude (f.code x) = f.significand x * 2 ^ (f.exponent x - f.frac) := by
  obtain ⟨hnonneg, hlt, hlead⟩ := scaled_bounds f hx
  have hexp : 1 - (f.bias : ℤ) ≤ f.exponent x := le_max_right _ _
  have hsig : 0 ≤ f.significand x := le_roundHalfEven (by push_cast; exact hnonneg)
  have hle : f.significand x ≤ (2 * 2 ^ f.frac : ℕ) :=
    (le_abs_self _).trans (abs_roundHalfEven_le (by rw [abs_of_nonneg hnonneg]; exact hlt.le))
  have hlead' : 2 ^ f.frac ≤ (f.significand x).toNat ∨
      (f.exponent x - (1 - f.bias)).toNat = 0 := by
    rcases hlead with h | h
    · have hint : ((2 ^ f.frac : ℕ) : ℤ) ≤ f.significand x :=
        le_roundHalfEven (by exact_mod_cast h)
      exact .inl (by omega)
    · exact .inr (by omega)
  have hcast : (((f.significand x).toNat : ℕ) : ℚ) = f.significand x := by
    exact_mod_cast congrArg (Int.cast : ℤ → ℚ) (Int.toNat_of_nonneg hsig)
  rw [code, if_neg hx.ne', magnitude_code (by omega) hlead', hcast, least]
  congr 2
  omega

/-- **The error is at most half the spacing.** -/
theorem abs_magnitude_code_sub_le (f : BinaryFormat) (hx : 0 < x) :
    |f.magnitude (f.code x) - x| ≤ 2 ^ (f.exponent x - f.frac) / 2 := by
  have hpos : (0 : ℚ) < 2 ^ (f.exponent x - f.frac) := by positivity
  have hround := abs_sub_roundHalfEven_le (x / 2 ^ (f.exponent x - f.frac))
  calc |f.magnitude (f.code x) - x|
      = |x / 2 ^ (f.exponent x - f.frac) - f.significand x| * 2 ^ (f.exponent x - f.frac) := by
        rw [magnitude_code_eq f hx, abs_sub_comm, ← abs_of_pos hpos, ← abs_mul, abs_of_pos hpos,
          sub_mul, div_mul_cancel₀ _ hpos.ne']
    _ ≤ 1 / 2 * 2 ^ (f.exponent x - f.frac) := mul_le_mul_of_nonneg_right hround hpos.le
    _ = 2 ^ (f.exponent x - f.frac) / 2 := by ring

/-- The spacing at a number in the normal range. -/
lemma spacing_le (hx : 2 ^ (1 - f.bias : ℤ) ≤ x) :
    (2 : ℚ) ^ (f.exponent x - f.frac) ≤ x / 2 ^ f.frac := by
  have hpos : 0 < x := lt_of_lt_of_le (by positivity) hx
  have hexp : (2 : ℚ) ^ f.exponent x ≤ x := by
    rw [exponent]
    rcases max_choice (Int.log 2 x) (1 - f.bias) with h | h <;> rw [h]
    · exact_mod_cast Int.zpow_log_le_self (b := 2) (by decide) hpos
    · exact hx
  rw [zpow_sub₀ two_ne_zero, zpow_natCast]
  exact div_le_div_of_nonneg_right hexp (by positivity)

/-- **A number of the format is kept.** -/
@[simp]
theorem code_magnitude (f : BinaryFormat) (c : ℕ) : f.code (f.magnitude c) = c :=
  (nearest_code f (f.magnitude_nonneg c)).unique (nearest_self f c)

/-- A small multiple of a power of two is a number of the format. -/
lemma exists_magnitude_eq {e : ℤ} (hm : m < 2 * 2 ^ f.frac) (he : f.least ≤ e) :
    ∃ c, f.magnitude c = m * 2 ^ e := by
  obtain ⟨n, rfl⟩ : ∃ n : ℕ, e = n + f.least := ⟨(e - f.least).toNat, by omega⟩
  clear he
  induction n generalizing m with
  | zero => exact ⟨0 * 2 ^ f.frac + m, magnitude_code hm.le (.inr rfl)⟩
  | succ n ih =>
      rcases Nat.lt_or_ge m (2 ^ f.frac) with hlt | hge
      · obtain ⟨c, hc⟩ := ih (m := 2 * m) (by omega)
        refine ⟨c, hc.trans ?_⟩
        rw [show ((n + 1 : ℕ) : ℤ) + f.least = (n + f.least) + 1 by push_cast; ring,
          zpow_add_one₀ two_ne_zero]
        push_cast
        ring
      · exact ⟨(n + 1) * 2 ^ f.frac + m, magnitude_code hm.le (.inl hge)⟩

end Order

/-! ### Dropping bits of the fraction -/

section Narrow

/-- The format with `d` more bits of fraction. -/
def finer (d : ℕ) : BinaryFormat :=
  ⟨f.frac + d, f.exp, Nat.add_pos_left f.frac_pos d, f.exp_pos⟩

/-- Half less one and the last bit that stays are added, then the `d` lower bits are dropped. -/
def narrow (d c : ℕ) : ℕ := (c + (c / 2 ^ d % 2 + (2 ^ (d - 1) - 1))) / 2 ^ d

variable {f} {d k j : ℕ}

/-- The lower bits go from one pattern to the next in equal steps. -/
lemma magnitude_finer (hj : j ≤ 2 ^ d) : (f.finer d).magnitude (k * 2 ^ d + j) =
    f.magnitude k + j / 2 ^ d * (f.magnitude (k + 1) - f.magnitude k) := by
  have hd : (2 : ℚ) ^ d ≠ 0 := by positivity
  obtain ⟨n, m, rfl, hm, hlead⟩ := exists_code f k
  have hpow : 2 ^ (f.finer d).frac = 2 ^ f.frac * 2 ^ d := pow_add 2 f.frac d
  have hleast : (n : ℤ) + f.least = (n + (f.finer d).least) + d := by
    simp only [least, finer, bias]
    push_cast
    ring
  have hplace : (n * 2 ^ f.frac + m) * 2 ^ d + j =
      n * 2 ^ (f.finer d).frac + (m * 2 ^ d + j) := by
    rw [hpow]
    ring
  have hle : m * 2 ^ d + j ≤ 2 * 2 ^ (f.finer d).frac := by
    rw [hpow]
    calc m * 2 ^ d + j ≤ (m + 1) * 2 ^ d := by rw [Nat.add_mul, Nat.one_mul]; omega
      _ ≤ 2 * 2 ^ f.frac * 2 ^ d := Nat.mul_le_mul_right _ hm
      _ = 2 * (2 ^ f.frac * 2 ^ d) := by ring
  have hlead' : 2 ^ (f.finer d).frac ≤ m * 2 ^ d + j ∨ n = 0 := by
    rw [hpow]
    exact hlead.imp_left fun h => (Nat.mul_le_mul_right _ h).trans (Nat.le_add_right _ _)
  rw [hplace, magnitude_code hle hlead', Nat.add_assoc, magnitude_code hm.le hlead,
    magnitude_code hm (hlead.imp_left fun h => h.trans (Nat.le_succ m)), hleast,
    zpow_add₀ (two_ne_zero' ℚ) (n + (f.finer d).least), zpow_natCast]
  push_cast
  generalize (2 : ℚ) ^ ((n : ℤ) + (f.finer d).least) = u
  field_simp
  ring

/-- **Dropping the lower bits so rounds to nearest, ties to even.** -/
theorem nearest_narrow (hd : 0 < d) (c : ℕ) :
    f.Nearest ((f.finer d).magnitude c) (narrow d c) := by
  obtain ⟨e, rfl⟩ := Nat.exists_eq_succ_of_ne_zero hd.ne'
  have hpos : 0 < 2 ^ e := Nat.two_pow_pos e
  have hpow : 2 ^ (e + 1) = 2 * 2 ^ e := by rw [pow_succ, Nat.mul_comm]
  obtain ⟨k, j, hc, hj⟩ : ∃ k j, c = k * 2 ^ (e + 1) + j ∧ j < 2 ^ (e + 1) :=
    ⟨c / 2 ^ (e + 1), c % 2 ^ (e + 1), by rw [Nat.mul_comm]; exact (Nat.div_add_mod c _).symm,
      Nat.mod_lt _ (Nat.two_pow_pos _)⟩
  have hk : c / 2 ^ (e + 1) = k := by
    rw [hc, Nat.add_comm, Nat.add_mul_div_right _ _ (Nat.two_pow_pos _), Nat.div_eq_of_lt hj,
      Nat.zero_add]
  have hnarrow : narrow (e + 1) c = k + (j + (k % 2 + (2 ^ e - 1))) / 2 ^ (e + 1) := by
    rw [narrow, hk, Nat.add_sub_cancel, hc,
      show k * 2 ^ (e + 1) + j + (k % 2 + (2 ^ e - 1)) =
        (j + (k % 2 + (2 ^ e - 1))) + k * 2 ^ (e + 1) by ring,
      Nat.add_mul_div_right _ _ (Nat.two_pow_pos _), Nat.add_comm]
  -- the number is `t` of the way from one pattern to the next
  have hgap := sub_pos.mpr (f.magnitude_strictMono (Nat.lt_succ_self k))
  set gap := f.magnitude (k + 1) - f.magnitude k with hgapdef
  have hsucc : f.magnitude (k + 1) = f.magnitude k + gap := by rw [hgapdef]; ring
  set t : ℚ := j / 2 ^ (e + 1) with ht
  have hjt : (j : ℚ) = t * (2 * 2 ^ e) := by
    rw [ht, pow_succ]
    field_simp
  have htpos : 0 ≤ t := by positivity
  have htlt : t < 1 := by
    rw [ht, div_lt_one (by positivity)]
    exact_mod_cast hj
  have hpow' : (0 : ℚ) < 2 ^ e := by positivity
  have hone : ∀ y, 2 ^ (e + 1) ≤ y → y < 2 * 2 ^ (e + 1) → y / 2 ^ (e + 1) = 1 :=
    fun y hlow hhigh => Nat.div_eq_of_lt_le (by omega) (by omega)
  have hx : f.magnitude k + t * gap - f.magnitude k = t * gap := by ring
  have hx' : f.magnitude (k + 1) - (f.magnitude k + t * gap) = (1 - t) * gap := by
    rw [hsucc]
    ring
  rw [hc, magnitude_finer hj.le, ← hc, hnarrow, ← ht, ← hgapdef]
  refine nearest_of_between (k := k) ?_ ?_ ?_
  · exact le_add_of_nonneg_right (mul_nonneg htpos hgap.le)
  · rw [hsucc]
    exact add_le_add_right (mul_le_of_le_one_left hgap.le htlt.le) _
  rw [hx, hx', mul_lt_mul_iff_left₀ hgap, mul_lt_mul_iff_left₀ hgap, mul_left_inj' hgap.ne',
    mul_left_inj' hgap.ne']
  rcases Nat.lt_trichotomy j (2 ^ e) with hlt | heq | hgt
  · have hlt' : (j : ℚ) < 2 ^ e := by exact_mod_cast hlt
    have htlt' : t < 1 / 2 := by nlinarith
    refine .inl ⟨?_, .inl (by linarith)⟩
    rw [Nat.div_eq_of_lt (by omega), Nat.add_zero]
  · have heq' : (j : ℚ) = 2 ^ e := by exact_mod_cast heq
    have hhalf : t = 1 / 2 := by
      have : t * (2 * 2 ^ e) = 1 / 2 * (2 * 2 ^ e) := by rw [← hjt, heq']; ring
      exact mul_right_cancel₀ (by positivity) this
    rcases Nat.mod_two_eq_zero_or_one k with heven | hodd
    · refine .inl ⟨?_, .inr ⟨by linarith, heven⟩⟩
      rw [Nat.div_eq_of_lt (by omega), Nat.add_zero]
    · refine .inr ⟨?_, .inr ⟨by linarith, hodd⟩⟩
      rw [hone _ (by omega) (by omega)]
  · have hgt' : (2 : ℚ) ^ e < j := by exact_mod_cast hgt
    have hthalf : 1 / 2 < t := by nlinarith
    refine .inr ⟨?_, .inl (by linarith)⟩
    rw [hone _ (by omega) (by omega)]

end Narrow

/-! ### Patterns with a sign -/

/-- The pattern of infinity without its sign; what is above it is no number. -/
def inf : ℕ := (2 ^ f.exp - 1) * 2 ^ f.frac

/-- The sign of a pattern. -/
def isNeg (x : ℕ) : Bool := x / 2 ^ (f.frac + f.exp) % 2 = 1

/-- A pattern without its sign. -/
def low (x : ℕ) : ℕ := x % 2 ^ (f.frac + f.exp)

/-- The pattern with the given sign. -/
def pack (neg : Bool) (c : ℕ) : ℕ := (if neg then 2 ^ (f.frac + f.exp) else 0) + c

/-- The number that a pattern stands for. -/
def value (x : ℕ) : ℚ := if f.isNeg x then -f.magnitude (f.low x) else f.magnitude (f.low x)

/-- Rounding with a sign; what is rounded past the last number is infinite. -/
def round (neg : Bool) (m : ℚ) : ℕ := f.pack neg (min (f.code m) f.inf)

/-- The pattern in another format. -/
def convert (g : BinaryFormat) (x : ℕ) : ℕ := g.round (f.isNeg x) (f.magnitude (f.low x))

/-- `-x` -/
def negate (x : ℕ) : ℕ := f.pack (!f.isNeg x) (f.low x)

/-- A pattern that is no number: which one, is the choice of `p`. -/
def notNumber (p : ℕ) : ℕ := f.pack (decide (p % 2 = 1)) (f.inf + 1 + p / 2 % (2 ^ f.frac - 1))

section Arithmetic

/- The pattern of a result that is no number is left open. -/
variable (nan : ℕ → ℕ → ℕ) (x y : ℕ)

/-- `x * y` -/
def mul : ℕ :=
  if f.inf < f.low x ∨ f.inf < f.low y then f.notNumber (nan x y)
  else if f.low x = f.inf ∨ f.low y = f.inf then
    if f.low x = 0 ∨ f.low y = 0 then f.notNumber (nan x y)
    else f.pack (f.isNeg x ^^ f.isNeg y) f.inf
  else f.round (f.isNeg x ^^ f.isNeg y) (f.magnitude (f.low x) * f.magnitude (f.low y))

/-- `x / y` -/
def div : ℕ :=
  if f.inf < f.low x ∨ f.inf < f.low y then f.notNumber (nan x y)
  else if f.low x = f.inf then
    if f.low y = f.inf then f.notNumber (nan x y) else f.pack (f.isNeg x ^^ f.isNeg y) f.inf
  else if f.low y = 0 then
    if f.low x = 0 then f.notNumber (nan x y) else f.pack (f.isNeg x ^^ f.isNeg y) f.inf
  else if f.low y = f.inf then f.pack (f.isNeg x ^^ f.isNeg y) 0
  else f.round (f.isNeg x ^^ f.isNeg y) (f.magnitude (f.low x) / f.magnitude (f.low y))

/-- `x + y` -/
def add : ℕ :=
  if f.inf < f.low x ∨ f.inf < f.low y then f.notNumber (nan x y)
  else if f.low x = f.inf then
    if f.low y = f.inf ∧ f.isNeg x ≠ f.isNeg y then f.notNumber (nan x y) else x
  else if f.low y = f.inf then y
  else if f.value x + f.value y = 0 then f.pack (f.isNeg x && f.isNeg y) 0
  else f.round (decide (f.value x + f.value y < 0)) |f.value x + f.value y|

end Arithmetic

/-! ### Results that need no rounding -/

/-- A magnitude that a pattern below infinity has. -/
def Representable (m : ℚ) : Prop := ∃ c < f.inf, f.magnitude c = m

/-- The pattern `x` is that of a number with this sign and this magnitude. -/
structure IsNumber (x : ℕ) (neg : Bool) (m : ℚ) : Prop where
  representable : f.Representable m
  pattern : x = f.pack neg (f.code m)

section Exact

variable {f} {nan : ℕ → ℕ → ℕ} {x y c : ℕ} {neg neg' : Bool} {m m' : ℚ}

lemma inf_lt (f : BinaryFormat) : f.inf < 2 ^ (f.frac + f.exp) := by
  have hpos : 0 < 2 ^ f.exp := Nat.two_pow_pos _
  rw [pow_add, Nat.mul_comm (2 ^ f.frac), inf]
  exact Nat.mul_lt_mul_of_pos_right (by omega) (Nat.two_pow_pos _)

lemma low_pack (hc : c < 2 ^ (f.frac + f.exp)) : f.low (f.pack neg c) = c := by
  rw [low, pack]
  split_ifs
  · rw [Nat.add_mod_left, Nat.mod_eq_of_lt hc]
  · rw [Nat.zero_add, Nat.mod_eq_of_lt hc]

lemma isNeg_pack (hc : c < 2 ^ (f.frac + f.exp)) : f.isNeg (f.pack neg c) = neg := by
  have hpos : 0 < 2 ^ (f.frac + f.exp) := Nat.two_pow_pos _
  rw [isNeg, pack]
  cases neg with
  | true => simp [Nat.add_div_left _ hpos, Nat.div_eq_of_lt hc]
  | false => simp [Nat.div_eq_of_lt hc]

lemma pack_lt (hc : c < 2 ^ (f.frac + f.exp)) (neg : Bool) :
    f.pack neg c < 2 ^ (f.frac + f.exp + 1) := by
  rw [pack, pow_succ]
  split_ifs <;> omega

lemma round_lt (f : BinaryFormat) (neg : Bool) (m : ℚ) :
    f.round neg m < 2 ^ (f.frac + f.exp + 1) :=
  pack_lt ((min_le_right _ _).trans_lt f.inf_lt) neg

lemma notNumber_lt (f : BinaryFormat) (p : ℕ) : f.notNumber p < 2 ^ (f.frac + f.exp + 1) := by
  have hfrac : 2 ≤ 2 ^ f.frac := Nat.pow_le_pow_right two_pos f.frac_pos
  have hexp : 0 < 2 ^ f.exp := Nat.two_pow_pos _
  have hmod : p / 2 % (2 ^ f.frac - 1) < 2 ^ f.frac - 1 := Nat.mod_lt _ (by omega)
  have hinf : f.inf + 2 ^ f.frac = 2 ^ (f.frac + f.exp) := by
    rw [inf, ← Nat.succ_mul, Nat.succ_eq_add_one, Nat.sub_add_cancel hexp, pow_add, Nat.mul_comm]
  exact pack_lt (by omega) _

/-- A product is a pattern. -/
lemma mul_lt (f : BinaryFormat) (nan : ℕ → ℕ → ℕ) (x y : ℕ) :
    f.mul nan x y < 2 ^ (f.frac + f.exp + 1) := by
  rw [mul]
  split_ifs
  · exact f.notNumber_lt _
  · exact f.notNumber_lt _
  · exact pack_lt f.inf_lt _
  · exact f.round_lt _ _

/-- Infinity has the place of a power of two. -/
lemma magnitude_inf (f : BinaryFormat) : f.magnitude f.inf = 2 ^ (f.bias + 1 : ℤ) := by
  have hpos : 0 < 2 ^ f.frac := Nat.two_pow_pos _
  obtain ⟨e, he⟩ := Nat.exists_eq_succ_of_ne_zero f.exp_pos.ne'
  have hpow : 2 ^ f.exp = 2 * 2 ^ e := by rw [he, pow_succ, Nat.mul_comm]
  have hbias : f.bias = 2 ^ e - 1 := by rw [bias, he, Nat.succ_sub_one]
  have hone : 0 < 2 ^ e := Nat.two_pow_pos e
  rw [magnitude, inf, Nat.mul_div_cancel _ hpos, Nat.mul_mod_left, if_neg (by omega), Nat.add_zero,
    Nat.cast_pow, Nat.cast_ofNat, ← zpow_natCast, ← zpow_add₀ two_ne_zero, least]
  congr 1
  omega

/-- Small multiples of powers of two are representable, up to the last number. -/
lemma representable_mul_zpow {n a : ℕ} {e : ℤ} (hn : n < 2 ^ a) (ha : a ≤ f.frac + 1)
    (he : f.least ≤ e) (htop : a + e ≤ f.bias + 1) : f.Representable (n * 2 ^ e) := by
  have hn' : n < 2 * 2 ^ f.frac := by
    rw [← pow_succ']
    exact hn.trans_le (Nat.pow_le_pow_right two_pos ha)
  obtain ⟨c, hc⟩ := exists_magnitude_eq hn' he
  have hlt : f.magnitude c < f.magnitude f.inf := by
    have hcast : (n : ℚ) < 2 ^ (a : ℤ) := by exact_mod_cast hn
    calc f.magnitude c = n * 2 ^ e := hc
      _ < 2 ^ (a : ℤ) * 2 ^ e := mul_lt_mul_of_pos_right hcast (by positivity)
      _ = 2 ^ (a + e) := (zpow_add₀ two_ne_zero _ _).symm
      _ ≤ 2 ^ (f.bias + 1 : ℤ) := zpow_le_zpow_right₀ one_le_two htop
      _ = f.magnitude f.inf := (magnitude_inf f).symm
  exact ⟨c, f.magnitude_strictMono.lt_iff_lt.mp hlt, hc⟩

/-- **The numbers of a format are numbers of a wider one.** -/
lemma representable_magnitude {g : BinaryFormat} (hfrac : g.frac ≤ f.frac)
    (hleast : f.least ≤ g.least) (htop : g.frac + 2 ^ g.exp + g.least ≤ f.bias + 1)
    (hc : c < 2 ^ (g.frac + g.exp)) : f.Representable (g.magnitude c) := by
  obtain ⟨n, m', rfl, hm, hlead⟩ := exists_code g c
  have hn : n < 2 ^ g.exp := by
    rw [pow_add, Nat.mul_comm (2 ^ g.frac)] at hc
    exact Nat.lt_of_mul_lt_mul_right ((Nat.le_add_right _ _).trans_lt hc)
  have hncast : (n : ℤ) + 1 ≤ 2 ^ g.exp := by exact_mod_cast hn
  rw [magnitude_code hm.le hlead]
  have hm' : m' < 2 ^ (g.frac + 1) := by rwa [pow_succ']
  refine representable_mul_zpow hm' (Nat.succ_le_succ hfrac) (by omega) ?_
  push_cast
  omega

lemma Representable.nonneg (h : f.Representable m) : 0 ≤ m := by
  obtain ⟨c, -, rfl⟩ := h
  exact f.magnitude_nonneg c

lemma Representable.code_lt (h : f.Representable m) : f.code m < f.inf := by
  obtain ⟨c, hc, rfl⟩ := h
  rwa [code_magnitude]

lemma Representable.magnitude_code (h : f.Representable m) : f.magnitude (f.code m) = m := by
  obtain ⟨c, -, rfl⟩ := h
  rw [code_magnitude]

/-- A representable magnitude is not rounded. -/
lemma round_isNumber (h : f.Representable m) : f.IsNumber (f.round neg m) neg m :=
  ⟨h, by rw [round, min_eq_left h.code_lt.le]⟩

lemma isNumber_pack (hc : c < f.inf) : f.IsNumber (f.pack neg c) neg (f.magnitude c) :=
  ⟨⟨c, hc, rfl⟩, by rw [code_magnitude]⟩

lemma IsNumber.low (h : f.IsNumber x neg m) : f.low x = f.code m := by
  rw [h.pattern, low_pack (h.representable.code_lt.trans f.inf_lt)]

lemma IsNumber.isNeg (h : f.IsNumber x neg m) : f.isNeg x = neg := by
  rw [h.pattern, isNeg_pack (h.representable.code_lt.trans f.inf_lt)]

lemma IsNumber.magnitude (h : f.IsNumber x neg m) : f.magnitude (f.low x) = m := by
  rw [h.low, h.representable.magnitude_code]

lemma IsNumber.low_lt (h : f.IsNumber x neg m) : f.low x < f.inf := by
  rw [h.low]
  exact h.representable.code_lt

lemma IsNumber.low_eq_zero (h : f.IsNumber x neg m) : f.low x = 0 ↔ m = 0 := by
  rw [← magnitude_eq_zero (f := f), h.magnitude]

/-- The sign and the magnitude determine the pattern. -/
lemma IsNumber.eq (h : f.IsNumber x neg m) (h' : f.IsNumber y neg m) : x = y :=
  h.pattern.trans h'.pattern.symm

lemma IsNumber.negate (h : f.IsNumber x neg m) : f.IsNumber (f.negate x) (!neg) m :=
  ⟨h.representable, by rw [BinaryFormat.negate, h.isNeg, h.low]⟩

/-- The product of two numbers is rounded. -/
lemma IsNumber.mul_eq (h : f.IsNumber x neg m) (h' : f.IsNumber y neg' m') :
    f.mul nan x y = f.round (neg ^^ neg') (m * m') := by
  have hx := h.low_lt
  have hy := h'.low_lt
  rw [BinaryFormat.mul, if_neg (by omega), if_neg (by omega), h.isNeg, h'.isNeg, h.magnitude,
    h'.magnitude]

/-- **A product that is representable.** -/
lemma IsNumber.mul (h : f.IsNumber x neg m) (h' : f.IsNumber y neg' m')
    (hr : f.Representable (m * m')) : f.IsNumber (f.mul nan x y) (neg ^^ neg') (m * m') := by
  rw [h.mul_eq h']
  exact round_isNumber hr

/-- **A quotient that is representable.** -/
lemma IsNumber.div (h : f.IsNumber x neg m) (h' : f.IsNumber y neg' m') (hne : m' ≠ 0)
    (hr : f.Representable (m / m')) : f.IsNumber (f.div nan x y) (neg ^^ neg') (m / m') := by
  have hx := h.low_lt
  have hy := h'.low_lt
  have hy0 : f.low y ≠ 0 := fun h0 => hne (h'.low_eq_zero.mp h0)
  rw [BinaryFormat.div, if_neg (by omega), if_neg (by omega), if_neg hy0, if_neg (by omega),
    h.isNeg, h'.isNeg, h.magnitude, h'.magnitude]
  exact round_isNumber hr

/-- **A sum of numbers without a sign that is representable.** -/
lemma IsNumber.add (h : f.IsNumber x false m) (h' : f.IsNumber y false m')
    (hr : f.Representable (m + m')) : f.IsNumber (f.add nan x y) false (m + m') := by
  have hx := h.low_lt
  have hy := h'.low_lt
  have hvalue : f.value x + f.value y = m + m' := by
    rw [value, value, h.isNeg, h'.isNeg, h.magnitude, h'.magnitude]
    rfl
  have hnonneg := hr.nonneg
  rw [BinaryFormat.add, if_neg (by omega), if_neg (by omega), if_neg (by omega), hvalue]
  by_cases hzero : m + m' = 0
  · rw [if_pos hzero, h.isNeg, hzero]
    exact ⟨hzero ▸ hr, by rw [code, if_pos rfl]; rfl⟩
  · rw [if_neg hzero, decide_eq_false (not_lt.mpr hnonneg), abs_of_nonneg hnonneg]
    exact round_isNumber hr

/-- A number of another format that is one of this format, converted. -/
lemma convert_isNumber {g : BinaryFormat} (hr : g.Representable (f.magnitude (f.low x))) :
    g.IsNumber (f.convert g x) (f.isNeg x) (f.magnitude (f.low x)) :=
  round_isNumber hr

end Exact

/-! ### The formats -/

/-- `f32` -/
def binary32 : BinaryFormat := ⟨23, 8, by decide, by decide⟩

/-- `f16` -/
def binary16 : BinaryFormat := ⟨10, 5, by decide, by decide⟩

/-- `bf16`, the upper half of `f32`. -/
def bfloat16 : BinaryFormat := ⟨7, 8, by decide, by decide⟩

/-- `F8_E4M3`, in which only the last pattern is no number. -/
def e4m3 : BinaryFormat := ⟨3, 4, by decide, by decide⟩

/-- `F8_E5M2` -/
def e5m2 : BinaryFormat := ⟨2, 5, by decide, by decide⟩

end BinaryFormat

end Braidinfer.Lib

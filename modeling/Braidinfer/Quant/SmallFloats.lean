/-
The conversions to bf16 in `bqnt_quantize.rs`, on patterns; `quant.rs` has `f32_to_bf16` too.

`f32` arithmetic rounds to nearest, ties to even.  The decoders of fp8 compute with `f32` numbers of
few bits, so that nothing is rounded; `f32_to_bf16` is the only step that rounds.

* `f32ToBf16`, `NarrowsTo`: **it rounds to nearest, ties to even** (`f32ToBf16_narrowsTo`), and
  nothing else does (`NarrowsTo.unique`); `f32ToBf16_eq_ofRat`: what `Bf16.ofRat` computes of a
  number;
* `ConvertsRight`, `convertsRight_iff`: **the patterns that it converts right are all but some that
  are no numbers**, which become infinite or `-0`, or for which the sum has more than 32 bits;
* `fp8E4M3ToF32`, `fp8E5M2ToF32`: **they decode exactly** (`fp8E4M3ToF32_eq`, `fp8E5M2ToF32_eq`);
* `f16ToBf16`: it rounds what is not subnormal (`f16ToBf16_nearest`), and **makes the subnormal
  numbers zero** (`f16ToBf16_subnormal`, `not_nearest_zero`); what is no number, it can lose
  (`f16ToBf16_nan`).
-/
import Braidinfer.Lib.Bf16
import Mathlib.Tactic.Linarith

namespace Braidinfer.Quant

open Braidinfer.Lib
open BinaryFormat (binary32 binary16 bfloat16 e4m3 e5m2)

/-! ### bf16 -/

/-- `f32_to_bf16`, the same in both files. -/
def f32ToBf16 (bits : ℕ) : ℕ :=
  let round := ((bits >>> 16) &&& 1) + 0x7FFF
  ((bits + round) % 2 ^ 32) >>> 16

/-- `bf16_to_f32`, and `bf16_to_f32_cpu` of `quant.rs`. -/
def bf16ToF32 (bits : ℕ) : ℕ := bits <<< 16

/-- The bf16 pattern `y` is nearest to the `f32` pattern `x`, ties to even, and has its sign; the
pattern of infinity has its place in the order.  To what is no number nothing is near: there it is
the pattern that `f32_to_bf16` makes of it. -/
def NarrowsTo (x y : ℕ) : Prop :=
  if binary32.inf < binary32.low x then y = f32ToBf16 x
  else ∃ c, y = bfloat16.pack (binary32.isNeg x) c ∧
    bfloat16.Nearest (binary32.magnitude (binary32.low x)) c

variable {x y y' c : ℕ} {neg : Bool} {m : ℚ} {nan : ℕ → ℕ → ℕ}

/-- There is one such pattern. -/
lemma NarrowsTo.unique (h : NarrowsTo x y) (h' : NarrowsTo x y') : y = y' := by
  rw [NarrowsTo] at h h'
  split_ifs at h h' with hnan
  · exact h.trans h'.symm
  · obtain ⟨c, rfl, hc⟩ := h
    obtain ⟨c', rfl, hc'⟩ := h'
    rw [hc.unique hc']

/-- The sign takes no part in the rounding. -/
lemma f32ToBf16_pack (neg : Bool) (hc : c ≤ binary32.inf) :
    f32ToBf16 (binary32.pack neg c) = bfloat16.pack neg (BinaryFormat.narrow 16 c) := by
  have hinf : binary32.inf = 2139095040 := rfl
  have hand : (binary32.pack neg c >>> 16) &&& 1 = c / 2 ^ 16 % 2 := by
    rw [Nat.and_one_is_mod, Nat.shiftRight_eq_div_pow]
    cases neg with
    | true =>
        change (2 ^ 31 + c) / 2 ^ 16 % 2 = _
        omega
    | false =>
        change (0 + c) / 2 ^ 16 % 2 = _
        rw [Nat.zero_add]
  rw [f32ToBf16, hand, Nat.shiftRight_eq_div_pow, BinaryFormat.narrow]
  cases neg with
  | true =>
      change ((2 ^ 31 + c + _) % 2 ^ 32) / 2 ^ 16 = 2 ^ 15 + _ / 2 ^ 16
      omega
  | false =>
      change ((0 + c + _) % 2 ^ 32) / 2 ^ 16 = 0 + _ / 2 ^ 16
      omega

lemma pack_low (hx : x < 2 ^ 32) : binary32.pack (binary32.isNeg x) (binary32.low x) = x := by
  change (if decide (x / 2 ^ 31 % 2 = 1) = true then 2 ^ 31 else 0) + x % 2 ^ 31 = x
  simp only [decide_eq_true_eq]
  split_ifs <;> omega

/-- **Rounding to nearest, ties to even.** -/
theorem f32ToBf16_narrowsTo (hx : x < 2 ^ 32) : NarrowsTo x (f32ToBf16 x) := by
  rw [NarrowsTo]
  split_ifs with hnan
  · rfl
  · refine ⟨BinaryFormat.narrow 16 (binary32.low x), ?_,
      BinaryFormat.nearest_narrow (d := 16) (by decide) _⟩
    conv_lhs => rw [← pack_low hx]
    exact f32ToBf16_pack _ (not_lt.mp hnan)

/-- A number, narrowed. -/
lemma f32ToBf16_nearest (h : binary32.IsNumber x neg m) :
    ∃ c, f32ToBf16 x = bfloat16.pack neg c ∧ bfloat16.Nearest m c := by
  have hlow := h.representable.code_lt
  refine ⟨BinaryFormat.narrow 16 (binary32.code m), ?_, ?_⟩
  · rw [h.pattern, f32ToBf16_pack neg hlow.le]
  · have hnear := BinaryFormat.nearest_narrow (f := bfloat16) (by decide : 0 < 16)
      (binary32.code m)
    rwa [show bfloat16.finer 16 = binary32 from rfl, h.representable.magnitude_code] at hnear

/-- The quantizers round the numbers that they store so, in exact arithmetic. -/
theorem f32ToBf16_eq_ofRat (h : binary32.IsNumber x neg m) (hpos : 0 < m) :
    f32ToBf16 x = Bf16.ofRat (if neg then -m else m) := by
  obtain ⟨c, hc, hnear⟩ := f32ToBf16_nearest h
  have hcode : c = bfloat16.code m := hnear.unique (bfloat16.nearest_code hpos.le)
  rw [hc, hcode, Bf16.ofRat, Bf16.code_eq]
  cases neg with
  | true =>
      rw [if_pos rfl, if_pos (neg_neg_of_pos hpos), abs_neg, abs_of_pos hpos]
      rfl
  | false =>
      rw [if_neg Bool.false_ne_true, if_neg (not_lt.mpr hpos.le), abs_of_pos hpos]
      rfl

/-! ### Every pattern -/

/-- What `f32_to_bf16` adds to a pattern. -/
def bf16Rounding (bits : ℕ) : ℕ := ((bits >>> 16) &&& 1) + 0x7FFF

/-- `f32_to_bf16` and `bf16_to_f32` do right by the pattern `x`: the sum has 32 bits; a number is
rounded to the nearest pattern, ties to even, where infinity has its place in the order; infinity
stays; what is no number stays none; and what `bf16_to_f32` has made is undone. -/
structure ConvertsRight (x : ℕ) : Prop where
  no_overflow : x + bf16Rounding x < 2 ^ 32
  finite : binary32.low x < binary32.inf → ∃ c ≤ bfloat16.inf,
    f32ToBf16 x = bfloat16.pack (binary32.isNeg x) c ∧
      bfloat16.Nearest (binary32.magnitude (binary32.low x)) c
  infinite : binary32.low x = binary32.inf →
    f32ToBf16 x = bfloat16.pack (binary32.isNeg x) bfloat16.inf
  nan : binary32.inf < binary32.low x → bfloat16.inf < bfloat16.low (f32ToBf16 x)
  bf16 : ∀ y < 2 ^ 16, x = bf16ToF32 y → f32ToBf16 x = y

/-- A pattern that is no number, with a fraction so small that rounding takes it to infinity, or so
large that the carry goes through the exponent into the sign. -/
def NanLost (x : ℕ) : Prop :=
  binary32.inf < binary32.low x ∧ (binary32.low x ≤ 0x7F808000 ∨ 0x7FFF8000 ≤ binary32.low x)

instance (x : ℕ) : Decidable (NanLost x) := inferInstanceAs (Decidable (_ ∧ _))

lemma bf16Rounding_eq (x : ℕ) : bf16Rounding x = x / 2 ^ 16 % 2 + 0x7FFF := by
  rw [bf16Rounding, Nat.and_one_is_mod, Nat.shiftRight_eq_div_pow]

lemma bf16ToF32_eq (y : ℕ) : bf16ToF32 y = y * 2 ^ 16 := by
  unfold bf16ToF32
  exact Nat.shiftLeft_eq y 16

lemma f32ToBf16_eq (x : ℕ) : f32ToBf16 x = (x + bf16Rounding x) % 2 ^ 32 / 2 ^ 16 := by
  rw [f32ToBf16, Nat.shiftRight_eq_div_pow _ 16]
  rfl

/-- Rounding does not go past infinity. -/
lemma narrow_le (hc : c ≤ binary32.inf) : BinaryFormat.narrow 16 c ≤ bfloat16.inf := by
  have hinf : binary32.inf = 0x7F800000 := rfl
  change (c + (c / 2 ^ 16 % 2 + (2 ^ 15 - 1))) / 2 ^ 16 ≤ 0x7F80
  omega

/-- The sum keeps what is no number apart from infinity and from the sign, or it does not. -/
lemma nan_bounds (hx : x < 2 ^ 32) (hnan : binary32.inf < binary32.low x) :
    (NanLost x → 2 ^ 32 ≤ x + bf16Rounding x ∨ bfloat16.low (f32ToBf16 x) ≤ bfloat16.inf) ∧
      (¬ NanLost x → x + bf16Rounding x < 2 ^ 32 ∧
        bfloat16.inf < bfloat16.low (f32ToBf16 x)) := by
  change 0x7F800000 < x % 2 ^ 31 at hnan
  have hround := bf16Rounding_eq x
  have hresult := f32ToBf16_eq x
  have hlost : NanLost x ↔ x % 2 ^ 31 ≤ 0x7F808000 ∨ 0x7FFF8000 ≤ x % 2 ^ 31 :=
    and_iff_right hnan
  change (_ → _ ∨ f32ToBf16 x % 2 ^ 15 ≤ 0x7F80) ∧ (_ → _ ∧ 0x7F80 < f32ToBf16 x % 2 ^ 15)
  rw [hlost, hresult]
  constructor
  · rintro (hsmall | hlarge)
    · right
      have hsum : x + bf16Rounding x < 2 ^ 32 := by omega
      rw [Nat.mod_eq_of_lt hsum]
      omega
    · -- the carry reaches the sign: it is the last bit of the sum, or past it
      rcases Nat.lt_or_ge x (2 ^ 31) with hpos | hneg
      · right
        have hsum : x + bf16Rounding x < 2 ^ 32 := by omega
        rw [Nat.mod_eq_of_lt hsum]
        omega
      · left
        omega
  · intro hkept
    have hsum : x + bf16Rounding x < 2 ^ 32 := by omega
    refine ⟨hsum, ?_⟩
    rw [Nat.mod_eq_of_lt hsum]
    -- without the sign, the sum is past infinity
    have hbits : ∀ n s, 0x7F810000 ≤ n → n < 2 ^ 31 →
        0x7F80 < (s * 2 ^ 31 + n) / 2 ^ 16 % 2 ^ 15 := by omega
    have hsign : x + bf16Rounding x =
        x / 2 ^ 31 * 2 ^ 31 + (x % 2 ^ 31 + bf16Rounding x) := by omega
    rw [hsign]
    exact hbits _ _ (by omega) (by omega)

/-- **`f32_to_bf16` does right by a pattern, unless that is no number and close to the infinity or
to the sign.** -/
theorem convertsRight_iff (hx : x < 2 ^ 32) : ConvertsRight x ↔ ¬ NanLost x := by
  constructor
  · intro hright hlost
    have hnan := hlost.1
    rcases (nan_bounds hx hnan).1 hlost with hover | hlow
    · exact absurd hright.no_overflow (not_lt.mpr hover)
    · exact absurd (hright.nan hnan) (not_lt.mpr hlow)
  · intro hkept
    refine ⟨?_, fun hfinite => ?_, fun hinfinite => ?_, fun hnan => ?_, fun y hy hxy => ?_⟩
    · rcases Nat.lt_or_ge binary32.inf (binary32.low x) with hnan | hnumber
      · exact ((nan_bounds hx hnan).2 hkept).1
      · have hlow : binary32.low x = x % 2 ^ 31 := rfl
        have hinf : binary32.inf = 0x7F800000 := rfl
        rw [bf16Rounding_eq]
        omega
    · refine ⟨BinaryFormat.narrow 16 (binary32.low x), narrow_le hfinite.le, ?_,
        BinaryFormat.nearest_narrow (d := 16) (by decide) _⟩
      conv_lhs => rw [← pack_low hx]
      exact f32ToBf16_pack _ hfinite.le
    · conv_lhs => rw [← pack_low hx, hinfinite]
      exact f32ToBf16_pack _ le_rfl
    · exact ((nan_bounds hx hnan).2 hkept).2
    · have hxy' : x = y * 2 ^ 16 := hxy.trans (bf16ToF32_eq y)
      have hround := bf16Rounding_eq x
      rw [hxy', Nat.mul_div_cancel _ (by decide : 0 < 2 ^ 16)] at hround
      have hsum : y * 2 ^ 16 + bf16Rounding (y * 2 ^ 16) < 2 ^ 32 := by omega
      rw [f32ToBf16_eq, hxy', Nat.mod_eq_of_lt hsum]
      omega

/-- The largest number becomes infinite. -/
theorem convertsRight_largest :
    ¬ NanLost 0x7F7FFFFF ∧ ConvertsRight 0x7F7FFFFF ∧ f32ToBf16 0x7F7FFFFF = 0x7F80 :=
  ⟨by decide, (convertsRight_iff (by decide)).mpr (by decide), by decide⟩

/-- A pattern that is no number becomes infinite, one becomes `-0`, and for one the sum has more
than 32 bits. -/
theorem not_convertsRight :
    (binary32.inf < binary32.low 0x7F802000 ∧ f32ToBf16 0x7F802000 = bfloat16.inf) ∧
      (binary32.inf < binary32.low 0x7FFFE000 ∧ f32ToBf16 0x7FFFE000 = bfloat16.pack true 0) ∧
      2 ^ 32 ≤ 0xFFFFE000 + bf16Rounding 0xFFFFE000 ∧
      ¬ ∀ x < 2 ^ 32, ConvertsRight x :=
  ⟨by decide, by decide, by decide, fun h => absurd (h 0x7FFFE000 (by decide)).nan (by decide)⟩

/-! ### fp8 -/

/-- `n as f32` -/
def natF32 (n : ℕ) : ℕ := binary32.round false n

/-- What the two decoders have in common: fractions are counted in parts of `steps`, the subnormal
numbers in units of `1 / tiny`, and `rebias` is between the two biases. -/
def fp8ToF32 (nan : ℕ → ℕ → ℕ) (steps tiny rebias sign exp mant : ℕ) : ℕ :=
  let val :=
    if exp = 0 then
      binary32.mul nan (binary32.div nan (natF32 mant) (natF32 steps))
        (binary32.div nan (natF32 1) (natF32 tiny))
    else
      binary32.mul nan
        (binary32.add nan (natF32 1) (binary32.div nan (natF32 mant) (natF32 steps)))
        (((exp + rebias) &&& 0xFF) <<< 23)
  if sign = 1 then binary32.negate val else val

/-- `fp8_e4m3_to_f32` -/
def fp8E4M3ToF32 (nan : ℕ → ℕ → ℕ) (b : ℕ) : ℕ :=
  let sign := (b >>> 7) &&& 1
  let exp := (b >>> 3) &&& 0xF
  let mant := b &&& 0x7
  if exp = 0xF ∧ mant = 0x7 then 0x7FC00000
  else fp8ToF32 nan 8 64 120 sign exp mant

/-- `fp8_e5m2_to_f32` -/
def fp8E5M2ToF32 (nan : ℕ → ℕ → ℕ) (b : ℕ) : ℕ :=
  let sign := (b >>> 7) &&& 1
  let exp := (b >>> 2) &&& 0x1F
  let mant := b &&& 0x3
  if exp = 0x1F then
    if mant ≠ 0 then 0
    else
      let bf16Max := bf16ToF32 0x7F7F
      if sign = 1 then binary32.negate bf16Max else bf16Max
  else fp8ToF32 nan 4 (1 <<< 14) 112 sign exp mant

/-- Numbers of `f32`. -/
lemma representable_binary32 {n : ℕ} {e : ℤ} (hn : n < 2 ^ 24) (hlow : -149 ≤ e)
    (hhigh : e ≤ 104) : binary32.Representable (n * 2 ^ e) :=
  BinaryFormat.representable_mul_zpow hn le_rfl hlow
    (show ((24 : ℕ) : ℤ) + e ≤ 127 + 1 by push_cast; omega)

lemma natF32_isNumber {n : ℕ} (hn : n < 2 ^ 24) : binary32.IsNumber (natF32 n) false n := by
  have h := representable_binary32 hn (by decide : (-149 : ℤ) ≤ 0) (by decide)
  rw [zpow_zero, mul_one] at h
  exact BinaryFormat.round_isNumber h

/-- A power of two by its pattern. -/
lemma shift_isNumber {e : ℕ} (hlow : 0 < e) (hhigh : e < 255) :
    binary32.IsNumber (e <<< 23) false (2 ^ ((e : ℤ) - 127)) := by
  have hc : e * 2 ^ 23 < binary32.inf := Nat.mul_lt_mul_of_pos_right hhigh (by decide)
  have hmagnitude : binary32.magnitude (e * 2 ^ 23) = 2 ^ ((e : ℤ) - 127) := by
    rw [BinaryFormat.magnitude, show binary32.frac = 23 from rfl,
      Nat.mul_div_cancel _ (by decide : 0 < 2 ^ 23), Nat.mul_mod_left, if_neg hlow.ne',
      show binary32.least = -149 from rfl, Nat.add_zero, Nat.cast_pow, Nat.cast_ofNat,
      ← zpow_natCast, ← zpow_add₀ two_ne_zero]
    congr 1
    push_cast
    ring
  rw [Nat.shiftLeft_eq, ← hmagnitude]
  have h : binary32.IsNumber (binary32.pack false (e * 2 ^ 23)) false _ :=
    BinaryFormat.isNumber_pack hc
  rwa [show binary32.pack false (e * 2 ^ 23) = e * 2 ^ 23 from Nat.zero_add _] at h

/-- A quotient by a power of two. -/
lemma div_isNumber (nan : ℕ → ℕ → ℕ) {n k : ℕ} (hn : n < 2 ^ 24) (hk : k < 24) :
    binary32.IsNumber (binary32.div nan (natF32 n) (natF32 (2 ^ k))) false
      (n * 2 ^ (-(k : ℤ))) := by
  have hpow : 2 ^ k < 2 ^ 24 := Nat.pow_lt_pow_right (by decide) hk
  have hdiv : (n : ℚ) / ((2 ^ k : ℕ) : ℚ) = n * 2 ^ (-(k : ℤ)) := by
    rw [zpow_neg, zpow_natCast, Nat.cast_pow, Nat.cast_two, div_eq_mul_inv]
  rw [← hdiv]
  refine (natF32_isNumber hn).div (natF32_isNumber hpow) (by positivity) ?_
  rw [hdiv]
  exact representable_binary32 hn (by omega) (by omega)

section Decoder

variable (nan) (g : BinaryFormat) {exp mant : ℕ} (hfrac : g.frac ≤ 3) (hbias : 1 ≤ g.bias)
  (hbias' : g.bias ≤ 15) (hmant : mant < 2 ^ g.frac)

include hfrac hbias hbias' hmant

/-- A number without its leading bit. -/
lemma fp8_subnormal_isNumber :
    binary32.IsNumber (binary32.mul nan (binary32.div nan (natF32 mant) (natF32 (2 ^ g.frac)))
      (binary32.div nan (natF32 1) (natF32 (2 ^ (g.bias - 1))))) false (g.magnitude mant) := by
  have hsmall : 2 ^ g.frac ≤ 2 ^ 3 := Nat.pow_le_pow_right two_pos hfrac
  have hprod : (mant : ℚ) * 2 ^ (-(g.frac : ℤ)) * ((1 : ℕ) * 2 ^ (-((g.bias - 1 : ℕ) : ℤ))) =
      mant * 2 ^ g.least := by
    rw [Nat.cast_one, one_mul, mul_assoc, ← zpow_add₀ two_ne_zero, BinaryFormat.least]
    congr 2
    omega
  rw [BinaryFormat.magnitude_of_lt hmant, ← hprod]
  refine (div_isNumber nan (by omega) (by omega)).mul
    (div_isNumber nan (by decide) (by omega)) ?_
  rw [hprod]
  refine representable_binary32 (by omega) ?_ ?_ <;> rw [BinaryFormat.least] <;> omega

/-- A number with its leading bit. -/
lemma fp8_normal_isNumber (hexp : exp < 32) :
    binary32.IsNumber (binary32.mul nan
        (binary32.add nan (natF32 1) (binary32.div nan (natF32 mant) (natF32 (2 ^ g.frac))))
        (((exp + 1 + (127 - g.bias)) &&& 0xFF) <<< 23)) false
      (g.magnitude ((exp + 1) * 2 ^ g.frac + mant)) := by
  have hsmall : 2 ^ g.frac ≤ 2 ^ 3 := Nat.pow_le_pow_right two_pos hfrac
  have hsum : ((1 : ℕ) : ℚ) + mant * 2 ^ (-(g.frac : ℤ)) =
      (2 ^ g.frac + mant : ℕ) * 2 ^ (-(g.frac : ℤ)) := by
    rw [Nat.cast_add, add_mul, Nat.cast_pow, Nat.cast_two, zpow_neg, zpow_natCast,
      mul_inv_cancel₀ (by positivity), Nat.cast_one]
  have hand : (exp + 1 + (127 - g.bias)) &&& 0xFF = exp + 1 + (127 - g.bias) := by
    rw [show 0xFF = 2 ^ 8 - 1 from rfl, Nat.and_two_pow_sub_one_eq_mod]
    exact Nat.mod_eq_of_lt (by omega)
  have hprod : (((1 : ℕ) : ℚ) + mant * 2 ^ (-(g.frac : ℤ))) *
      2 ^ (((exp + 1 + (127 - g.bias) : ℕ) : ℤ) - 127) =
        (2 ^ g.frac + mant : ℕ) * 2 ^ ((exp : ℤ) + g.least) := by
    rw [hsum, mul_assoc, ← zpow_add₀ two_ne_zero, BinaryFormat.least]
    congr 2
    omega
  have hmagnitude : g.magnitude ((exp + 1) * 2 ^ g.frac + mant) =
      (2 ^ g.frac + mant : ℕ) * 2 ^ ((exp : ℤ) + g.least) := by
    rw [Nat.succ_mul, Nat.add_assoc, BinaryFormat.magnitude_code (by omega)
      (.inl (Nat.le_add_right _ _))]
  have hsumF : binary32.IsNumber
      (binary32.add nan (natF32 1) (binary32.div nan (natF32 mant) (natF32 (2 ^ g.frac)))) false
      (((1 : ℕ) : ℚ) + mant * 2 ^ (-(g.frac : ℤ))) := by
    refine (natF32_isNumber (by decide)).add (div_isNumber nan (by omega) (by omega)) ?_
    rw [hsum]
    exact representable_binary32 (by omega) (by omega) (by omega)
  rw [hmagnitude, ← hprod, hand]
  refine hsumF.mul (shift_isNumber (by omega) (by omega)) ?_
  rw [hprod]
  refine representable_binary32 (by omega) ?_ ?_ <;> rw [BinaryFormat.least] <;> omega

/-- **The arithmetic of the decoders is exact.** -/
lemma fp8ToF32_isNumber (sign : ℕ) (hexp : exp < 32) :
    binary32.IsNumber
      (fp8ToF32 nan (2 ^ g.frac) (2 ^ (g.bias - 1)) (127 - g.bias) sign exp mant)
      (decide (sign = 1)) (g.magnitude (exp * 2 ^ g.frac + mant)) := by
  have hval : ∃ val, fp8ToF32 nan (2 ^ g.frac) (2 ^ (g.bias - 1)) (127 - g.bias) sign exp mant =
      (if sign = 1 then binary32.negate val else val) ∧
        binary32.IsNumber val false (g.magnitude (exp * 2 ^ g.frac + mant)) := by
    refine ⟨_, rfl, ?_⟩
    rcases exp with - | exp
    · rw [if_pos rfl, Nat.zero_mul, Nat.zero_add]
      exact fp8_subnormal_isNumber nan g hfrac hbias hbias' hmant
    · rw [if_neg (Nat.succ_ne_zero exp)]
      exact fp8_normal_isNumber nan g hfrac hbias hbias' hmant (by omega)
  obtain ⟨val, heq, hnumber⟩ := hval
  rw [heq]
  by_cases hsign : sign = 1
  · rw [if_pos hsign, decide_eq_true hsign]
    exact hnumber.negate
  · rw [if_neg hsign, decide_eq_false hsign]
    exact hnumber

end Decoder

/-- The numbers of fp8 and of `f16` are numbers of `f32`, and those of fp8 are numbers of bf16. -/
lemma representable_small (hc : c < 2 ^ 7) :
    (binary32.Representable (e4m3.magnitude c) ∧ bfloat16.Representable (e4m3.magnitude c)) ∧
      binary32.Representable (e5m2.magnitude c) ∧ bfloat16.Representable (e5m2.magnitude c) :=
  ⟨⟨BinaryFormat.representable_magnitude (by decide) (by decide) (by decide) hc,
    BinaryFormat.representable_magnitude (by decide) (by decide) (by decide) hc⟩,
    BinaryFormat.representable_magnitude (by decide) (by decide) (by decide) hc,
    BinaryFormat.representable_magnitude (by decide) (by decide) (by decide) hc⟩

/-- **E4M3 is decoded exactly.** -/
theorem fp8E4M3ToF32_eq {b : ℕ} (hfinite : e4m3.low b ≠ 0x7F) :
    fp8E4M3ToF32 nan b = e4m3.convert binary32 b := by
  have hlow : e4m3.low b = b % 2 ^ 7 := rfl
  have hsign : (b >>> 7) &&& 1 = b / 2 ^ 7 % 2 := by
    rw [Nat.and_one_is_mod, Nat.shiftRight_eq_div_pow]
  have hexp : (b >>> 3) &&& 0xF = b / 2 ^ 3 % 2 ^ 4 := by
    rw [show 0xF = 2 ^ 4 - 1 from rfl, Nat.and_two_pow_sub_one_eq_mod, Nat.shiftRight_eq_div_pow]
  have hmant : b &&& 0x7 = b % 2 ^ 3 := Nat.and_two_pow_sub_one_eq_mod b 3
  have hplace : b / 2 ^ 3 % 2 ^ 4 * 2 ^ e4m3.frac + b % 2 ^ 3 = e4m3.low b := by
    rw [hlow, show e4m3.frac = 3 from rfl]
    omega
  have hnumber := fp8ToF32_isNumber nan e4m3 (by decide) (by decide) (by decide)
    (show b % 2 ^ 3 < 2 ^ e4m3.frac from Nat.mod_lt b (by decide)) (b / 2 ^ 7 % 2)
    (by omega : b / 2 ^ 3 % 2 ^ 4 < 32)
  rw [hplace] at hnumber
  rw [fp8E4M3ToF32, hsign, hexp, hmant, if_neg (by omega)]
  exact hnumber.eq (BinaryFormat.convert_isNumber
    (representable_small (Nat.mod_lt b (by decide : 0 < 2 ^ 7))).1.1)

/-- **E5M2 is decoded exactly.** -/
theorem fp8E5M2ToF32_eq {b : ℕ} (hfinite : e5m2.low b < e5m2.inf) :
    fp8E5M2ToF32 nan b = e5m2.convert binary32 b := by
  have hlow : e5m2.low b = b % 2 ^ 7 := rfl
  have hinf : e5m2.inf = 124 := rfl
  have hsign : (b >>> 7) &&& 1 = b / 2 ^ 7 % 2 := by
    rw [Nat.and_one_is_mod, Nat.shiftRight_eq_div_pow]
  have hexp : (b >>> 2) &&& 0x1F = b / 2 ^ 2 % 2 ^ 5 := by
    rw [show 0x1F = 2 ^ 5 - 1 from rfl, Nat.and_two_pow_sub_one_eq_mod, Nat.shiftRight_eq_div_pow]
  have hmant : b &&& 0x3 = b % 2 ^ 2 := Nat.and_two_pow_sub_one_eq_mod b 2
  have hplace : b / 2 ^ 2 % 2 ^ 5 * 2 ^ e5m2.frac + b % 2 ^ 2 = e5m2.low b := by
    rw [hlow, show e5m2.frac = 2 from rfl]
    omega
  have hnumber := fp8ToF32_isNumber nan e5m2 (by decide) (by decide) (by decide)
    (show b % 2 ^ 2 < 2 ^ e5m2.frac from Nat.mod_lt b (by decide)) (b / 2 ^ 7 % 2)
    (by omega : b / 2 ^ 2 % 2 ^ 5 < 32)
  rw [hplace] at hnumber
  rw [fp8E5M2ToF32, hsign, hexp, hmant, if_neg (by omega)]
  exact hnumber.eq (BinaryFormat.convert_isNumber
    (representable_small (Nat.mod_lt b (by decide : 0 < 2 ^ 7))).2.1)

/-- A number of fp8 is a number of bf16. -/
lemma f32ToBf16_convert {g : BinaryFormat} (hr : binary32.Representable (g.magnitude (g.low x)))
    (hr' : bfloat16.Representable (g.magnitude (g.low x))) :
    f32ToBf16 (g.convert binary32 x) = g.convert bfloat16 x := by
  obtain ⟨c, hc, hnear⟩ := f32ToBf16_nearest (BinaryFormat.convert_isNumber hr)
  have hnear' := BinaryFormat.nearest_code bfloat16 (g.magnitude_nonneg (g.low x))
  rw [hc, hnear.unique hnear', (BinaryFormat.convert_isNumber hr').pattern]

/-! ### f16 -/

/-- The conversion of an `f16` element. -/
def f16ToBf16 (nan : ℕ → ℕ → ℕ) (bits : ℕ) : ℕ :=
  let sign := (bits >>> 15) &&& 1
  let exp := (bits >>> 10) &&& 0x1F
  let mant := bits &&& 0x3FF
  let f32Bits :=
    if exp = 0 then
      if mant = 0 then sign <<< 31
      else
        let f := binary32.mul nan (mant <<< 13) 0x33800000
        (sign <<< 31) ||| (f &&& 0x7FFFFFFF)
    else if exp = 0x1F then (sign <<< 31) ||| 0x7F800000 ||| (mant <<< 13)
    else (sign <<< 31) ||| ((exp + 112) <<< 23) ||| (mant <<< 13)
  f32ToBf16 f32Bits

/-- The fields of a pattern. -/
lemma f16_fields (x : ℕ) : (x >>> 15) &&& 1 = x / 2 ^ 15 % 2 ∧
    (x >>> 10) &&& 0x1F = binary16.low x / 2 ^ 10 ∧ x &&& 0x3FF = binary16.low x % 2 ^ 10 := by
  have hlow : binary16.low x = x % 2 ^ 15 := rfl
  refine ⟨?_, ?_, ?_⟩
  · rw [Nat.and_one_is_mod, Nat.shiftRight_eq_div_pow]
  · rw [show 0x1F = 2 ^ 5 - 1 from rfl, Nat.and_two_pow_sub_one_eq_mod, Nat.shiftRight_eq_div_pow,
      hlow]
    omega
  · rw [show 0x3FF = 2 ^ 10 - 1 from rfl, Nat.and_two_pow_sub_one_eq_mod, hlow]
    omega

lemma sign_shift (x : ℕ) : (x / 2 ^ 15 % 2) <<< 31 = binary32.pack (binary16.isNeg x) 0 := by
  change _ = (if decide (x / 2 ^ 15 % 2 = 1) = true then 2 ^ 31 else 0) + 0
  simp only [decide_eq_true_eq, Nat.shiftLeft_eq]
  split_ifs <;> omega

/-- The fields of an `f32` pattern, put together. -/
lemma or_fields {sign exp mant : ℕ} (hexp : exp < 2 ^ 8) (hmant : mant < 2 ^ 10) :
    (sign <<< 31) ||| (exp <<< 23) ||| (mant <<< 13) =
      sign <<< 31 + (exp * 2 ^ 23 + mant * 2 ^ 13) := by
  have hexp' : exp <<< 23 < 2 ^ 31 := by
    rw [Nat.shiftLeft_eq]
    omega
  have hmant' : mant <<< 13 < 2 ^ 23 := by
    rw [Nat.shiftLeft_eq]
    omega
  have hjoin : sign <<< 31 + exp <<< 23 = (sign * 2 ^ 8 + exp) <<< 23 := by
    simp only [Nat.shiftLeft_eq]
    ring
  rw [← Nat.shiftLeft_add_eq_or_of_lt hexp', hjoin, ← Nat.shiftLeft_add_eq_or_of_lt hmant']
  simp only [Nat.shiftLeft_eq]
  ring

/-- **A zero, or a number with its leading bit, is rounded.** -/
theorem f16ToBf16_nearest (nan : ℕ → ℕ → ℕ) (hfinite : binary16.low x < binary16.inf)
    (hnormal : 0 < binary16.low x → 2 ^ 10 ≤ binary16.low x) :
    ∃ c, f16ToBf16 nan x = bfloat16.pack (binary16.isNeg x) c ∧
      bfloat16.Nearest (binary16.magnitude (binary16.low x)) c := by
  obtain ⟨hsign, hexp, hmant⟩ := f16_fields x
  have hinf : binary16.inf = 31 * 2 ^ 10 := rfl
  rw [f16ToBf16, hsign, hexp, hmant]
  rcases Nat.eq_zero_or_pos (binary16.low x) with hzero | hpos
  · rw [hzero, if_pos (by decide), if_pos (by decide), sign_shift]
    refine f32ToBf16_nearest ?_
    rw [BinaryFormat.magnitude_zero, ← binary32.magnitude_zero]
    exact BinaryFormat.isNumber_pack (by decide)
  · have hge := hnormal hpos
    rw [if_neg (by omega), if_neg (by omega),
      or_fields (by omega) (Nat.mod_lt _ (by decide)), sign_shift]
    refine f32ToBf16_nearest ?_
    -- the significand is shifted, and the exponent is that of the other bias
    obtain ⟨e, m, hlow, hm⟩ : ∃ e m, binary16.low x = (e + 1) * 2 ^ 10 + m ∧ m < 2 ^ 10 :=
      ⟨binary16.low x / 2 ^ 10 - 1, binary16.low x % 2 ^ 10, by omega, Nat.mod_lt _ (by decide)⟩
    have hfields : (binary16.low x / 2 ^ 10 + 112) * 2 ^ 23 + binary16.low x % 2 ^ 10 * 2 ^ 13 =
        (e + 112) * 2 ^ 23 + (2 ^ 23 + m * 2 ^ 13) := by omega
    have hmagnitude : binary16.magnitude (binary16.low x) =
        binary32.magnitude ((e + 112) * 2 ^ 23 + (2 ^ 23 + m * 2 ^ 13)) := by
      have hsmall := BinaryFormat.magnitude_code (f := binary16) (n := e) (m := 2 ^ 10 + m)
        (show 2 ^ 10 + m ≤ 2 * 2 ^ 10 by omega) (.inl (show 2 ^ 10 ≤ 2 ^ 10 + m by omega))
      have hlarge := BinaryFormat.magnitude_code (f := binary32) (n := e + 112)
        (m := 2 ^ 23 + m * 2 ^ 13) (show 2 ^ 23 + m * 2 ^ 13 ≤ 2 * 2 ^ 23 by omega)
        (.inl (show 2 ^ 23 ≤ 2 ^ 23 + m * 2 ^ 13 by omega))
      rw [show binary16.frac = 10 from rfl, show binary16.least = -24 from rfl] at hsmall
      rw [show binary32.frac = 23 from rfl, show binary32.least = -149 from rfl] at hlarge
      rw [hlow, Nat.succ_mul, Nat.add_assoc, hsmall, hlarge,
        show 2 ^ 23 + m * 2 ^ 13 = (2 ^ 10 + m) * 2 ^ 13 by ring, Nat.cast_mul (2 ^ 10 + m),
        mul_assoc, Nat.cast_pow, Nat.cast_ofNat, ← zpow_natCast, ← zpow_add₀ two_ne_zero]
      congr 2
      push_cast
      ring
    rw [hfields, hmagnitude]
    have hlt : (e + 112) * 2 ^ 23 + (2 ^ 23 + m * 2 ^ 13) < binary32.inf := by
      change _ < 255 * 2 ^ 23
      omega
    exact BinaryFormat.isNumber_pack hlt

/-- A product below half the least number of `f32`. -/
lemma mul_subnormal_eq_zero (nan : ℕ → ℕ → ℕ) (hc : c < 2 ^ 10) :
    binary32.mul nan (c <<< 13) 0x33800000 = 0 := by
  have hplace : c <<< 13 = binary32.pack false (c * 2 ^ 13) := by
    rw [Nat.shiftLeft_eq]
    exact (Nat.zero_add _).symm
  have hlt : c * 2 ^ 13 < binary32.inf := by
    change _ < 255 * 2 ^ 23
    omega
  have hmagnitude : binary32.magnitude (c * 2 ^ 13) = c * 2 ^ 13 * 2 ^ (-149 : ℤ) := by
    rw [BinaryFormat.magnitude_of_lt (show c * 2 ^ 13 < 2 ^ 23 by omega)]
    push_cast
    rfl
  have hx : binary32.IsNumber (binary32.pack false (c * 2 ^ 13)) false _ :=
    BinaryFormat.isNumber_pack hlt
  have hy : binary32.IsNumber 0x33800000 false (2 ^ (((103 : ℕ) : ℤ) - 127)) :=
    shift_isNumber (e := 103) (by decide) (by decide)
  -- half the least number is between the product and it
  have hleast : binary32.magnitude (0 + 1) = 2 ^ (-149 : ℤ) := by
    rw [BinaryFormat.magnitude_of_lt (by decide), Nat.cast_one, one_mul]
    rfl
  have hupos : (0 : ℚ) < 2 ^ (-149 : ℤ) := by positivity
  set u : ℚ := 2 ^ (-149 : ℤ)
  have hcast : (c : ℚ) < 2 ^ 10 := by exact_mod_cast hc
  have hcpos : (0 : ℚ) ≤ c := Nat.cast_nonneg c
  have hprod : binary32.magnitude (c * 2 ^ 13) * 2 ^ (((103 : ℕ) : ℤ) - 127) = c / 2 ^ 11 * u := by
    rw [hmagnitude, show ((103 : ℕ) : ℤ) - 127 = -24 from rfl]
    norm_num
    ring
  have hhalf : (c : ℚ) / 2 ^ 11 * u < 1 / 2 * u := by
    refine mul_lt_mul_of_pos_right ?_ hupos
    rw [div_lt_iff₀ (by positivity)]
    linarith
  have hnonneg : 0 ≤ (c : ℚ) / 2 ^ 11 * u := by positivity
  have hnear : binary32.Nearest (c / 2 ^ 11 * u) 0 := by
    refine BinaryFormat.nearest_of_between (k := 0) ?_ ?_ (.inl ⟨rfl, .inl ?_⟩)
    · rwa [BinaryFormat.magnitude_zero]
    · rw [hleast]
      linarith
    · rw [BinaryFormat.magnitude_zero, hleast]
      linarith
  rw [hplace, hx.mul_eq hy, hprod, BinaryFormat.round,
    (BinaryFormat.nearest_code binary32 hnonneg).unique hnear]
  rfl

/-- **A subnormal number becomes zero.** -/
theorem f16ToBf16_subnormal (nan : ℕ → ℕ → ℕ) (hpos : 0 < binary16.low x)
    (hlt : binary16.low x < 2 ^ 10) :
    f16ToBf16 nan x = bfloat16.pack (binary16.isNeg x) 0 := by
  obtain ⟨hsign, hexp, hmant⟩ := f16_fields x
  have hor : ∀ a : ℕ, a ||| (0 &&& 0x7FFFFFFF) = a := fun a => by rw [Nat.zero_and, Nat.or_zero]
  rw [f16ToBf16, hsign, hexp, hmant, if_pos (by omega), if_neg (by omega),
    mul_subnormal_eq_zero nan (Nat.mod_lt _ (by decide))]
  simp only [hor]
  rw [sign_shift, f32ToBf16_pack _ (Nat.zero_le _)]
  rfl

/-- What is no number of `f16` is none of `f32`, and of these some are lost. -/
theorem f16ToBf16_nan (nan : ℕ → ℕ → ℕ) (hnan : binary16.inf < binary16.low x) :
    ∃ y < 2 ^ 32, f16ToBf16 nan x = f32ToBf16 y ∧ binary32.inf < binary32.low y ∧
      (NanLost y ↔ binary16.low x % 2 ^ 10 ≤ 4 ∨ 0x3FC ≤ binary16.low x % 2 ^ 10) := by
  obtain ⟨hsign, hexp, hmant⟩ := f16_fields x
  have hlow : binary16.low x < 2 ^ 15 := Nat.mod_lt _ (by decide)
  change 31 * 2 ^ 10 < binary16.low x at hnan
  set m := binary16.low x % 2 ^ 10 with hm
  have hm' : m < 2 ^ 10 := Nat.mod_lt _ (by decide)
  have hy : 255 * 2 ^ 23 + m * 2 ^ 13 < 2 ^ 31 := by omega
  refine ⟨binary32.pack (binary16.isNeg x) (255 * 2 ^ 23 + m * 2 ^ 13),
    BinaryFormat.pack_lt hy _, ?_, ?_⟩
  · rw [f16ToBf16, hsign, hexp, hmant, if_neg (by omega), if_pos (by omega),
      show 0x7F800000 = 255 <<< 23 from rfl, or_fields (by decide) hm', sign_shift]
    rfl
  · have hinf : binary32.inf = 255 * 2 ^ 23 := rfl
    rw [NanLost, BinaryFormat.low_pack hy, hinf]
    omega

/-- Zero is not nearest to a number of the format. -/
theorem not_nearest_zero (hpos : 0 < c) : ¬ bfloat16.Nearest (binary16.magnitude c) 0 := by
  intro hnear
  have hleast : binary16.magnitude 1 = (1 : ℕ) * 2 ^ (-24 : ℤ) :=
    BinaryFormat.magnitude_of_lt (by decide)
  have hmono := binary16.magnitude_strictMono.monotone (show 1 ≤ c from hpos)
  -- the least number is a number of bf16, and nearer
  obtain ⟨c', hc'⟩ := BinaryFormat.exists_magnitude_eq (f := bfloat16) (m := 1) (e := -24)
    (by decide) (by decide)
  have hle := hnear.le c'
  rw [BinaryFormat.magnitude_zero, zero_sub, abs_neg, abs_of_nonneg (binary16.magnitude_nonneg c),
    hc', ← hleast, abs_of_nonpos (by linarith)] at hle
  have hposMag : 0 < binary16.magnitude 1 := by
    rw [hleast]
    positivity
  linarith

end Braidinfer.Quant

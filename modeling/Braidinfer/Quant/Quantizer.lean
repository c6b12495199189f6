/-
The weight quantizers (`quantize_pc_g32_q4`, `quantize_rnf4_g128` and `nf4_quantize` in `quant.rs`)
in exact rational arithmetic, and their bytes as the expert GEMVs read them.

`PcG32Q4` maps the range of a group of 32 to the integers up to 15; `Rnf4G128` takes the nearest
codeword of the values of a group of 128, and again of what that leaves.  Scales are stored as bf16.

* `Group`: what is computed of a group; `quantizePcG32Q4`, `quantizeRnf4G128`: the bytes;
* `nf4Quantize_spec`: the index is that of a codeword within half the widest gap;
* `Group.pcGroup_error`, `Group.rnf4Group_error`: **the error of an element**;
* `quantizeRows_reads`: what the kernels read of the bytes of any group quantizer;
* `quantizers_faithful`: **the kernels read the values that were chosen**, within that error.
-/
import Braidinfer.Lib.Bf16
import Braidinfer.Lib.Slots
import Braidinfer.Quant.ExpertGemv
import Mathlib.Data.List.GetD
import Mathlib.Tactic.LinearCombination

namespace Braidinfer.Quant

open Braidinfer.Lib

/-! ### The codebook -/

/-- `NF4_TABLE` -/
def nf4Table (i : ℕ) : ℚ :=
  [-1.0, -0.6961928, -0.5250731, -0.3949175, -0.2844414, -0.1847734, -0.0910500, 0.0, 0.0795803,
    0.1609302, 0.2461123, 0.3379152, 0.4407098, 0.5626170, 0.7229568, 1.0].getD i 0

/-- `NF4_BOUNDARIES` -/
def nf4Boundary (i : ℕ) : ℚ := midpoint nf4Table i

/-- `nf4_quantize` -/
def nf4Quantize (x : ℚ) : ℕ :=
  let i := if nf4Boundary 7 ≤ x then 8 else 0
  let i := i + if nf4Boundary (i + 3) ≤ x then 4 else 0
  let i := i + if nf4Boundary (i + 1) ≤ x then 2 else 0
  i + if nf4Boundary i ≤ x then 1 else 0

/-- Half the widest gap of the codebook. -/
def nf4HalfGap : ℚ := 0.1519036

lemma nf4Table_gap {i : ℕ} (hi : i < 15) :
    |nf4Table i| ≤ 1 ∧ nf4Table (i + 1) - nf4Table i ≤ 2 * nf4HalfGap := by
  interval_cases i <;> norm_num [nf4Table, nf4HalfGap, abs_le]

lemma abs_nf4Table_le {i : ℕ} (hi : i < 16) : |nf4Table i| ≤ 1 := by
  rcases Nat.lt_succ_iff_lt_or_eq.mp hi with hlt | rfl
  · exact (nf4Table_gap hlt).1
  · norm_num [nf4Table]

/-- The index that the search of `nf4_quantize` ends with, among the boundaries `b`. -/
def nf4Index (b : ℕ → ℚ) (x : ℚ) : ℕ :=
  let i := if b 7 ≤ x then 8 else 0
  let i := i + if b (i + 3) ≤ x then 4 else 0
  let i := i + if b (i + 1) ≤ x then 2 else 0
  i + if b i ≤ x then 1 else 0

/-- The search ends in the cell of the value. -/
lemma nf4Index_bracket (b : ℕ → ℚ) (x : ℚ) :
    nf4Index b x < 16 ∧ Bracket b 16 x (nf4Index b x) 1 := by
  have hstart : Bracket b 16 x 0 (8 + 8) := ⟨.inl rfl, .inl rfl⟩
  have h8 := hstart.step
  have h4 := Bracket.step (w := 4) h8
  have h2 := Bracket.step (w := 2) h4
  have h1 := Bracket.step (w := 1) h2
  refine ⟨?_, ?_⟩
  · rw [nf4Index]
    split_ifs <;> decide
  · simpa [nf4Index] using h1

lemma nf4Quantize_bracket (x : ℚ) :
    nf4Quantize x < 16 ∧ Bracket nf4Boundary 16 x (nf4Quantize x) 1 :=
  nf4Index_bracket nf4Boundary x

/-- **The index is that of a codeword near by.** -/
lemma nf4Quantize_spec {x : ℚ} (hx : |x| ≤ 1) :
    nf4Quantize x < 16 ∧ |x - nf4Table (nf4Quantize x)| ≤ nf4HalfGap := by
  obtain ⟨hlow, hhigh⟩ := abs_le.mp hx
  obtain ⟨hlt, hbracket⟩ := nf4Quantize_bracket x
  refine ⟨hlt, hbracket.abs_sub_le ?_ ?_ ?_ (fun j hj => ?_) hlt⟩
  · norm_num [nf4Table]
    exact hlow
  · norm_num [nf4Table]
    exact hhigh
  · norm_num [nf4HalfGap]
  · exact (nf4Table_gap (by omega)).2

/-! ### A group -/

/-- The patterns of a group: those of its `count` elements. -/
structure Group where
  patterns : ℕ → ℕ
  count : ℕ

namespace Group

variable (grp : Group)

/-- `vals`, as `unpack_bf16_group` fills it; zero past the group. -/
def vals (i : ℕ) : ℚ := if i < grp.count then Bf16.value (grp.patterns i) else 0

/-- `mn` -/
def mn : ℚ := minOver grp.vals grp.count

/-- `mx` -/
def mx : ℚ := maxOver grp.vals grp.count

/-- `scale` -/
def scale : ℚ := max ((grp.mx - grp.mn) / 15) 1e-10

/-- `indices` -/
def index (i : ℕ) : ℕ :=
  if i < grp.count then
    (min (max (roundHalfAway ((grp.vals i - grp.mn) * (1 / grp.scale))) 0) 15).toNat
  else 0

/-- `absmax1` -/
def absmax1 : ℚ := max (maxAbs grp.vals grp.count) 1e-10

/-- `idx1` -/
def idx1 (i : ℕ) : ℕ :=
  if i < grp.count then nf4Quantize (grp.vals i * (1 / grp.absmax1)) else 0

/-- What the first round leaves. -/
def residual (i : ℕ) : ℚ := grp.vals i - nf4Table (grp.idx1 i) * grp.absmax1

/-- `absmax2` -/
def absmax2 : ℚ := max (maxAbs grp.residual grp.count) 1e-10

/-- `idx2` -/
def idx2 (i : ℕ) : ℕ :=
  if i < grp.count then nf4Quantize (grp.residual i * (1 / grp.absmax2)) else 0

/-- What `PcG32Q4` stands for: the index that was chosen, with the stored scale and minimum. -/
def pcValue (i : ℕ) : ℚ :=
  grp.index i * Bf16.value (Bf16.ofRat grp.scale) + Bf16.value (Bf16.ofRat grp.mn)

/-- What `Rnf4G128` stands for: the pair of indices that was chosen, with the stored scales. -/
def rnf4Value (i : ℕ) : ℚ :=
  nf4Table (grp.idx1 i) * Bf16.value (Bf16.ofRat grp.absmax1) +
    nf4Table (grp.idx2 i) * Bf16.value (Bf16.ofRat grp.absmax2)

end Group

/-! ### The bytes -/

/-- The nibbles of `n` indices, two a byte. -/
def nibbleBytes (n : ℕ) (idx : ℕ → ℕ) : List UInt8 :=
  (List.range (n / 2)).map fun b => packNibbles (idx (2 * b)) (idx (2 * b + 1))

/-- The 20 bytes of a group of `PcG32Q4`. -/
def quantizePcGroup (grp : Group) : List UInt8 :=
  nibbleBytes 32 grp.index ++ u16Bytes (Bf16.ofRat grp.mn) ++ u16Bytes (Bf16.ofRat grp.scale)

/-- `quantize_rnf4_group` -/
def quantizeRnf4Group (grp : Group) : List UInt8 :=
  nibbleBytes 128 grp.idx1 ++ u16Bytes (Bf16.ofRat grp.absmax1) ++ nibbleBytes 128 grp.idx2 ++
    u16Bytes (Bf16.ofRat grp.absmax2)

/-- Group `g` of a row. -/
def groupOf {K : Type*} (f : Format K) (bf16Data : ℕ → ℕ) (inDim row g : ℕ) : Group where
  patterns i := bf16Data (row * inDim + g * f.groupSize + i)
  count := min f.groupSize (inDim - g * f.groupSize)

/-- The loop of both quantizers over rows and groups.  There is no result where the length of the
chunks that it asks for is zero. -/
def quantizeRows {K : Type*} (f : Format K) (quantizeGroup : Group → List UInt8)
    (bf16Data : ℕ → ℕ) (outDim inDim : ℕ) : Option (List UInt8) :=
  if f.numGroups inDim * f.groupBytes = 0 then none
  else some ((List.range outDim).flatMap fun row =>
    (List.range (f.numGroups inDim)).flatMap fun g =>
      quantizeGroup (groupOf f bf16Data inDim row g))

/-- The formats with the bf16 numbers and the codebook. -/
abbrev pcg32Rat : Format ℚ := pcg32 Bf16.value

/-- `rnf4` with the bf16 numbers and the codebook. -/
abbrev rnf4Rat : Format ℚ := rnf4 Bf16.value nf4Table

/-- `quantize_pc_g32_q4` -/
def quantizePcG32Q4 (bf16Data : ℕ → ℕ) (outDim inDim : ℕ) : Option (List UInt8) :=
  quantizeRows pcg32Rat quantizePcGroup bf16Data outDim inDim

/-- `quantize_rnf4_g128` -/
def quantizeRnf4G128 (bf16Data : ℕ → ℕ) (outDim inDim : ℕ) : Option (List UInt8) :=
  quantizeRows rnf4Rat quantizeRnf4Group bf16Data outDim inDim

/-! ### Scales -/

/-- A scale in the range of bf16 is stored with an error of one part in 256. -/
lemma abs_stored_sub_le {s : ℚ} (hlow : 1e-10 ≤ s) (hhigh : s < 2 ^ (127 : ℤ)) :
    |Bf16.value (Bf16.ofRat s) - s| ≤ s / 256 := by
  have hpos : 0 < s := lt_of_lt_of_le (by norm_num) hlow
  have hmin : (2 : ℚ) ^ (-126 : ℤ) ≤ |s| := by
    rw [abs_of_pos hpos]
    exact le_trans (by norm_num) hlow
  have herr := Bf16.abs_value_ofRat_sub_le hmin (by rwa [abs_of_pos hpos])
  rwa [abs_of_pos hpos] at herr

namespace Group

variable {grp : Group} {i : ℕ}

/-- A value of a group is a bf16 number. -/
lemma exists_pattern (grp : Group) (i : ℕ) : ∃ p, grp.vals i = Bf16.value p := by
  rw [vals]
  split_ifs
  · exact ⟨_, rfl⟩
  · exact ⟨0, by norm_num [Bf16.value, Bf16.magnitude]⟩

lemma abs_vals_lt (grp : Group) (i : ℕ) : |grp.vals i| < 2 ^ (129 : ℤ) := by
  obtain ⟨p, hp⟩ := grp.exists_pattern i
  rw [hp]
  exact Bf16.abs_value_lt p

/-- The minimum is stored as it is. -/
lemma stored_mn (grp : Group) : Bf16.value (Bf16.ofRat grp.mn) = grp.mn := by
  obtain ⟨i, hi⟩ := minOver_mem grp.vals grp.count
  obtain ⟨p, hp⟩ := grp.exists_pattern i
  rw [mn, hi, hp, Bf16.value_ofRat_value]

lemma le_scale (grp : Group) : 1e-10 ≤ grp.scale := le_max_right _ _

lemma scale_pos (grp : Group) : 0 < grp.scale := lt_of_lt_of_le (by norm_num) grp.le_scale

lemma scale_lt (grp : Group) : grp.scale < 2 ^ (127 : ℤ) := by
  obtain ⟨i, hi⟩ := minOver_mem grp.vals grp.count
  obtain ⟨j, hj⟩ := maxOver_mem grp.vals grp.count
  have hmin := (abs_lt.mp (grp.abs_vals_lt i)).1
  have hmax := (abs_lt.mp (grp.abs_vals_lt j)).2
  have h129 : (2 : ℚ) ^ (129 : ℤ) = 4 * 2 ^ (127 : ℤ) := by norm_num
  have hbig : (1 : ℚ) ≤ 2 ^ (127 : ℤ) := by norm_num
  rw [scale, mn, mx, hi, hj]
  refine max_lt ?_ (lt_of_lt_of_le (by norm_num) hbig)
  rw [h129] at hmin hmax
  linarith

/-! ### The error of `PcG32Q4` -/

/-- The quotient that is rounded lies in the range of the indices. -/
lemma quotient_mem (hi : i < grp.count) :
    0 ≤ (grp.vals i - grp.mn) * (1 / grp.scale) ∧
      (grp.vals i - grp.mn) * (1 / grp.scale) ≤ 15 := by
  have hpos := grp.scale_pos
  have hmin : grp.mn ≤ grp.vals i := minOver_le hi
  have hmax : grp.vals i ≤ grp.mx := le_maxOver hi
  have hscale : (grp.mx - grp.mn) / 15 ≤ grp.scale := le_max_left _ _
  rw [mul_one_div]
  constructor
  · exact div_nonneg (by linarith) hpos.le
  · rw [div_le_iff₀ hpos]
    linarith

/-- The index is the rounded quotient: no value is clamped. -/
lemma index_eq (hi : i < grp.count) : (grp.index i : ℤ) =
    roundHalfAway ((grp.vals i - grp.mn) * (1 / grp.scale)) ∧ grp.index i < 16 := by
  obtain ⟨hlow, hhigh⟩ := quotient_mem hi
  obtain ⟨hnonneg, hle⟩ := roundHalfAway_mem (n := 15) hlow (by exact_mod_cast hhigh)
  rw [index, if_pos hi]
  omega

/-- **The error of an element of `PcG32Q4`.** -/
theorem pcGroup_error (hi : i < grp.count) :
    |grp.vals i - grp.pcValue i| ≤ grp.scale * (1 / 2 + 15 / 256) := by
  have hpos := grp.scale_pos
  obtain ⟨hindex, hlt⟩ := index_eq hi
  set q := (grp.vals i - grp.mn) * (1 / grp.scale) with hq
  set s' := Bf16.value (Bf16.ofRat grp.scale) with hs'
  have hcast : (grp.index i : ℚ) = roundHalfAway q := by exact_mod_cast congrArg Int.cast hindex
  have hround : |q - grp.index i| ≤ 1 / 2 := by
    rw [hcast]
    exact abs_sub_roundHalfAway_le q
  have hstored : |s' - grp.scale| ≤ grp.scale / 256 := abs_stored_sub_le grp.le_scale grp.scale_lt
  have hval : grp.vals i - grp.mn = q * grp.scale := by
    rw [hq, mul_one_div, div_mul_cancel₀ _ hpos.ne']
  have h15 : (grp.index i : ℚ) ≤ 15 := by exact_mod_cast Nat.lt_succ_iff.mp hlt
  have hidx : (0 : ℚ) ≤ grp.index i := Nat.cast_nonneg _
  calc |grp.vals i - grp.pcValue i|
      = |(q - grp.index i) * grp.scale - grp.index i * (s' - grp.scale)| := by
        rw [pcValue, stored_mn, ← hs']
        congr 1
        linear_combination hval
    _ ≤ |(q - grp.index i) * grp.scale| + |grp.index i * (s' - grp.scale)| := abs_sub _ _
    _ = |q - grp.index i| * grp.scale + grp.index i * |s' - grp.scale| := by
        rw [abs_mul, abs_mul, abs_of_pos hpos, abs_of_nonneg hidx]
    _ ≤ 1 / 2 * grp.scale + 15 * (grp.scale / 256) :=
        add_le_add (mul_le_mul_of_nonneg_right hround hpos.le)
          (mul_le_mul h15 hstored (abs_nonneg _) (by norm_num))
    _ = grp.scale * (1 / 2 + 15 / 256) := by ring

/-! ### The error of `Rnf4G128` -/

/-- A round of the codebook: the index of a value that is at most `a`. -/
lemma nf4_round {v a : ℚ} (ha : 0 < a) (hv : |v| ≤ a) :
    nf4Quantize (v * (1 / a)) < 16 ∧
      |v - nf4Table (nf4Quantize (v * (1 / a))) * a| ≤ nf4HalfGap * a := by
  have hunit : |v * (1 / a)| ≤ 1 := by
    rw [mul_one_div, abs_div, abs_of_pos ha]
    exact div_le_one_of_le₀ hv ha.le
  obtain ⟨hlt, hnear⟩ := nf4Quantize_spec hunit
  refine ⟨hlt, ?_⟩
  have hval : v = v * (1 / a) * a := by rw [mul_one_div, div_mul_cancel₀ _ ha.ne']
  calc |v - nf4Table (nf4Quantize (v * (1 / a))) * a|
      = |v * (1 / a) - nf4Table (nf4Quantize (v * (1 / a)))| * a := by
        rw [← abs_of_pos ha, ← abs_mul, abs_of_pos ha, sub_mul, ← hval]
    _ ≤ nf4HalfGap * a := mul_le_mul_of_nonneg_right hnear ha.le

lemma absmax1_pos (grp : Group) : 0 < grp.absmax1 :=
  lt_of_lt_of_le (by norm_num) (le_max_right _ _)

lemma absmax2_pos (grp : Group) : 0 < grp.absmax2 :=
  lt_of_lt_of_le (by norm_num) (le_max_right _ _)

/-- The first round. -/
lemma idx1_spec (hi : i < grp.count) :
    grp.idx1 i < 16 ∧ |grp.residual i| ≤ nf4HalfGap * grp.absmax1 := by
  rw [residual, idx1, if_pos hi]
  exact nf4_round grp.absmax1_pos ((le_maxAbs hi).trans (le_max_left _ _))

/-- The second round. -/
lemma idx2_spec (hi : i < grp.count) :
    grp.idx2 i < 16 ∧
      |grp.residual i - nf4Table (grp.idx2 i) * grp.absmax2| ≤ nf4HalfGap * grp.absmax2 := by
  rw [idx2, if_pos hi]
  exact nf4_round grp.absmax2_pos ((le_maxAbs hi).trans (le_max_left _ _))

/-- The second scale is at most half the widest gap of the first. -/
lemma absmax2_le (grp : Group) : grp.absmax2 ≤ max (nf4HalfGap * grp.absmax1) 1e-10 := by
  refine max_le_max_right _ (maxAbs_le ?_ fun i hi => (idx1_spec hi).2)
  exact mul_nonneg (by norm_num [nf4HalfGap]) grp.absmax1_pos.le

/-- A scale that is a magnitude of the group is stored as it is. -/
lemma stored_absmax1 (hcount : 0 < grp.count) (ha : 1e-10 ≤ maxAbs grp.vals grp.count) :
    grp.absmax1 = maxAbs grp.vals grp.count ∧
      Bf16.value (Bf16.ofRat grp.absmax1) = grp.absmax1 := by
  have heq : grp.absmax1 = maxAbs grp.vals grp.count := max_eq_left ha
  refine ⟨heq, ?_⟩
  obtain ⟨i, -, hi⟩ := maxAbs_mem (f := grp.vals) hcount
  obtain ⟨p, hp⟩ := grp.exists_pattern i
  rw [heq, hi, hp, Bf16.abs_value, ← Bf16.value_of_lt (Nat.mod_lt _ (by decide)),
    Bf16.value_ofRat_value]

lemma absmax2_lt (ha : grp.absmax1 < 2 ^ (129 : ℤ)) : grp.absmax2 < 2 ^ (127 : ℤ) := by
  refine grp.absmax2_le.trans_lt (max_lt ?_ (by norm_num))
  have h129 : (2 : ℚ) ^ (129 : ℤ) = 4 * 2 ^ (127 : ℤ) := by norm_num
  rw [h129] at ha
  rw [nf4HalfGap]
  have hpos : (0 : ℚ) < 2 ^ (127 : ℤ) := by positivity
  linarith

/-- **The error of an element of `Rnf4G128`.** -/
theorem rnf4Group_error (hi : i < grp.count) (ha : 1e-10 ≤ maxAbs grp.vals grp.count) :
    |grp.vals i - grp.rnf4Value i| ≤
      (nf4HalfGap + 1 / 256) * max (nf4HalfGap * maxAbs grp.vals grp.count) 1e-10 := by
  obtain ⟨heq, hstored⟩ := stored_absmax1 (Nat.zero_lt_of_lt hi) ha
  obtain ⟨hlt2, hround⟩ := idx2_spec hi
  have hlt : grp.absmax1 < 2 ^ (129 : ℤ) := by
    obtain ⟨j, -, hj⟩ := maxAbs_mem (f := grp.vals) (Nat.zero_lt_of_lt hi)
    rw [heq, hj]
    exact grp.abs_vals_lt j
  set a2 := Bf16.value (Bf16.ofRat grp.absmax2) with ha2
  have hstored2 : |a2 - grp.absmax2| ≤ grp.absmax2 / 256 :=
    abs_stored_sub_le (le_max_right _ _) (absmax2_lt hlt)
  have htable : |nf4Table (grp.idx2 i)| ≤ 1 := abs_nf4Table_le hlt2
  calc |grp.vals i - grp.rnf4Value i|
      = |(grp.residual i - nf4Table (grp.idx2 i) * grp.absmax2) -
          nf4Table (grp.idx2 i) * (a2 - grp.absmax2)| := by
        rw [rnf4Value, hstored, residual, ← ha2]
        congr 1
        ring
    _ ≤ |grp.residual i - nf4Table (grp.idx2 i) * grp.absmax2| +
          |nf4Table (grp.idx2 i) * (a2 - grp.absmax2)| := abs_sub _ _
    _ ≤ nf4HalfGap * grp.absmax2 + 1 * (grp.absmax2 / 256) := by
        rw [abs_mul]
        exact add_le_add hround (mul_le_mul htable hstored2 (abs_nonneg _) (by norm_num))
    _ = (nf4HalfGap + 1 / 256) * grp.absmax2 := by ring
    _ ≤ _ := by
        rw [← heq]
        exact mul_le_mul_of_nonneg_left grp.absmax2_le (by norm_num [nf4HalfGap])

end Group

/-! ### The bytes of a group -/

section Bytes

variable {n b : ℕ} {idx : ℕ → ℕ}

lemma length_nibbleBytes : (nibbleBytes n idx).length = n / 2 := by
  rw [nibbleBytes, List.length_map, List.length_range]

/-- The two indices of a byte. -/
lemma nibbles_nibbleBytes (hidx : ∀ i, idx i < 16) (hb : b < n / 2) :
    lowNibble ((nibbleBytes n idx).getD b 0) = idx (2 * b) ∧
      highNibble ((nibbleBytes n idx).getD b 0) = idx (2 * b + 1) := by
  have hget : (nibbleBytes n idx).getD b 0 = packNibbles (idx (2 * b)) (idx (2 * b + 1)) := by
    rw [List.getD_eq_getElem?_getD, nibbleBytes, getElem?_map_range hb, Option.getD_some]
  rw [hget]
  exact nibbles_pack (hidx _) (hidx _)

/-- A pattern within a list of bytes. -/
lemma u16At_append {l r : List UInt8} {gp : ℕ → UInt8} {off x : ℕ} (hx : x < 2 ^ 16)
    (hlen : l.length = off) (hlow : gp off = (l ++ u16Bytes x ++ r).getD off 0)
    (hhigh : gp (off + 1) = (l ++ u16Bytes x ++ r).getD (off + 1) 0) : u16At gp off = x := by
  subst hlen
  rw [List.append_assoc] at hlow hhigh
  refine u16At_u16Bytes hx ?_ ?_
  · rw [hlow, List.getD_append_right _ _ _ _ le_rfl, Nat.sub_self]
    rfl
  · rw [hhigh, List.getD_append_right _ _ _ _ (Nat.le_add_right _ 1),
      Nat.add_sub_cancel_left]
    rfl

end Bytes

namespace Group

variable (grp : Group)

lemma index_lt (i : ℕ) : grp.index i < 16 := by
  by_cases hi : i < grp.count
  · exact (index_eq hi).2
  · rw [index, if_neg hi]
    decide

lemma idx1_lt (i : ℕ) : grp.idx1 i < 16 := by
  by_cases hi : i < grp.count
  · exact (idx1_spec hi).1
  · rw [idx1, if_neg hi]
    decide

lemma idx2_lt (i : ℕ) : grp.idx2 i < 16 := by
  by_cases hi : i < grp.count
  · exact (idx2_spec hi).1
  · rw [idx2, if_neg hi]
    decide

/-- Numbers below `2 ^ 127` have patterns. -/
lemma ofRat_lt_of_pos {x : ℚ} (hpos : 0 < x) (hx : x < 2 ^ (127 : ℤ)) :
    Bf16.ofRat x < 2 ^ 16 :=
  Bf16.ofRat_lt (Bf16.code_lt (by rwa [abs_of_pos hpos]))

lemma ofRat_mn_lt : Bf16.ofRat grp.mn < 2 ^ 16 := by
  obtain ⟨i, hi⟩ := minOver_mem grp.vals grp.count
  obtain ⟨p, hp⟩ := grp.exists_pattern i
  rw [mn, hi, hp]
  exact Bf16.ofRat_lt (Bf16.code_value_lt p)

lemma ofRat_scale_lt : Bf16.ofRat grp.scale < 2 ^ 16 :=
  ofRat_lt_of_pos grp.scale_pos grp.scale_lt

variable {grp} (hcount : 0 < grp.count)
include hcount

/-- The first scale is the least one, or a magnitude of the group. -/
lemma absmax1_cases : grp.absmax1 = 1e-10 ∨ ∃ p < 2 ^ 15, grp.absmax1 = Bf16.value p := by
  rcases max_choice (maxAbs grp.vals grp.count) 1e-10 with h | h
  · right
    obtain ⟨i, -, hi⟩ := maxAbs_mem (f := grp.vals) hcount
    obtain ⟨p, hp⟩ := grp.exists_pattern i
    have hmod : p % 2 ^ 15 < 2 ^ 15 := Nat.mod_lt _ (by decide)
    refine ⟨p % 2 ^ 15, hmod, ?_⟩
    rw [absmax1, h, hi, hp, Bf16.abs_value, Bf16.value_of_lt hmod]
  · exact .inl h

lemma ofRat_absmax1_lt : Bf16.ofRat grp.absmax1 < 2 ^ 16 := by
  rcases absmax1_cases hcount with h | ⟨p, -, h⟩
  · exact ofRat_lt_of_pos grp.absmax1_pos (by rw [h]; norm_num)
  · rw [h]
    exact Bf16.ofRat_lt (Bf16.code_value_lt p)

lemma ofRat_absmax2_lt : Bf16.ofRat grp.absmax2 < 2 ^ 16 := by
  refine ofRat_lt_of_pos grp.absmax2_pos (absmax2_lt ?_)
  rcases absmax1_cases hcount with h | ⟨p, -, h⟩
  · rw [h]
    norm_num
  · rw [h]
    exact (le_abs_self _).trans_lt (Bf16.abs_value_lt p)

end Group

section Values

variable {grp : Group} {gp : ℕ → UInt8} {b : ℕ}

lemma length_quantizePcGroup : (quantizePcGroup grp).length = 20 := by
  simp [quantizePcGroup, length_nibbleBytes, u16Bytes]

lemma length_quantizeRnf4Group : (quantizeRnf4Group grp).length = 132 := by
  simp [quantizeRnf4Group, length_nibbleBytes, u16Bytes]

/-- **The bytes of `PcG32Q4`** stand for the indices that were chosen. -/
theorem values_quantizePcGroup (hgp : ∀ k < 20, gp k = (quantizePcGroup grp).getD k 0)
    (hb : 2 * b < 32) :
    pcg32Rat.values gp b = (grp.pcValue (2 * b), grp.pcValue (2 * b + 1)) := by
  have hlen : (nibbleBytes 32 grp.index).length = 16 := length_nibbleBytes
  have hbyte : gp b = (nibbleBytes 32 grp.index).getD b 0 := by
    rw [hgp b (by omega), quantizePcGroup, List.append_assoc,
      List.getD_append _ _ _ _ (by omega)]
  obtain ⟨hlow, hhigh⟩ := nibbles_nibbleBytes (n := 32) grp.index_lt (b := b) (by omega)
  have hmn : u16At gp 16 = Bf16.ofRat grp.mn :=
    u16At_append grp.ofRat_mn_lt hlen (hgp 16 (by decide)) (hgp 17 (by decide))
  have hscale : u16At gp 18 = Bf16.ofRat grp.scale := by
    refine u16At_append (r := []) (l := nibbleBytes 32 grp.index ++ u16Bytes (Bf16.ofRat grp.mn))
      grp.ofRat_scale_lt ?_ ?_ ?_
    · rw [List.length_append, hlen]
      rfl
    · rw [List.append_nil]
      exact hgp 18 (by decide)
    · rw [List.append_nil]
      exact hgp 19 (by decide)
  rw [Group.pcValue, Group.pcValue, ← hmn, ← hscale, ← hlow, ← hhigh, ← hbyte]
  rfl

/-- **The bytes of `Rnf4G128`** stand for the pairs of indices that were chosen. -/
theorem values_quantizeRnf4Group (hcount : 0 < grp.count)
    (hgp : ∀ k < 132, gp k = (quantizeRnf4Group grp).getD k 0) (hb : 2 * b < 128) :
    rnf4Rat.values gp b = (grp.rnf4Value (2 * b), grp.rnf4Value (2 * b + 1)) := by
  have hlen1 : (nibbleBytes 128 grp.idx1).length = 64 := length_nibbleBytes
  have hlen2 : (nibbleBytes 128 grp.idx2).length = 64 := length_nibbleBytes
  have hhead : (nibbleBytes 128 grp.idx1 ++ u16Bytes (Bf16.ofRat grp.absmax1)).length = 66 := by
    rw [List.length_append, hlen1]
    rfl
  have hbyte1 : gp b = (nibbleBytes 128 grp.idx1).getD b 0 := by
    rw [hgp b (by omega), quantizeRnf4Group, List.append_assoc, List.append_assoc,
      List.getD_append _ _ _ _ (by omega)]
  have hbyte2 : gp (66 + b) = (nibbleBytes 128 grp.idx2).getD b 0 := by
    rw [hgp (66 + b) (by omega), quantizeRnf4Group, List.append_assoc,
      List.getD_append_right _ _ _ _ (by omega), hhead, Nat.add_sub_cancel_left,
      List.getD_append _ _ _ _ (by omega)]
  obtain ⟨hlow1, hhigh1⟩ := nibbles_nibbleBytes (n := 128) grp.idx1_lt (b := b) (by omega)
  obtain ⟨hlow2, hhigh2⟩ := nibbles_nibbleBytes (n := 128) grp.idx2_lt (b := b) (by omega)
  have habsmax1 : u16At gp 64 = Bf16.ofRat grp.absmax1 := by
    refine u16At_append (r := nibbleBytes 128 grp.idx2 ++ u16Bytes (Bf16.ofRat grp.absmax2))
      (Group.ofRat_absmax1_lt hcount) hlen1 ?_ ?_ <;> rw [← List.append_assoc]
    · exact hgp 64 (by decide)
    · exact hgp 65 (by decide)
  have habsmax2 : u16At gp 130 = Bf16.ofRat grp.absmax2 := by
    refine u16At_append (r := []) (l := nibbleBytes 128 grp.idx1 ++
      u16Bytes (Bf16.ofRat grp.absmax1) ++ nibbleBytes 128 grp.idx2)
      (Group.ofRat_absmax2_lt hcount) ?_ ?_ ?_
    · rw [List.length_append, hhead, hlen2]
    · rw [List.append_nil]
      exact hgp 130 (by decide)
    · rw [List.append_nil]
      exact hgp 131 (by decide)
  rw [Group.rnf4Value, Group.rnf4Value, ← habsmax1, ← habsmax2, ← hlow1, ← hhigh1, ← hlow2,
    ← hhigh2, ← hbyte1, ← hbyte2]
  rfl

end Values

/-! ### The bytes of a matrix -/

/-- The threads of a block read `x` as the weight of element `e` of a row, and nothing else. -/
def Reads {K : Type*} (f : Format K) (inDim : ℕ) (rowData : ℕ → UInt8) (e : ℕ) (x : K) : Prop :=
  (∃ tid < blockDim, (e, x) ∈ f.visits inDim rowData tid) ∧
    ∀ tid < blockDim, ∀ v ∈ f.visits inDim rowData tid, v.1 = e → v.2 = x

section Matrix

variable {K : Type*} {f : Format K} {quantizeGroup : Group → List UInt8} {bf16Data : ℕ → ℕ}
  {outDim inDim row g e : ℕ}

/-- The threads read decoded elements. -/
lemma Covers.reads {rowData : ℕ → UInt8} (hc : Covers f inDim rowData) (he : e < inDim) :
    Reads f inDim rowData e (f.decode rowData e) := by
  constructor
  · have hmem : e ∈ (List.range blockDim).flatMap fun tid =>
        (f.visits inDim rowData tid).map Prod.fst :=
      hc.once.mem_iff.mpr (List.mem_range.mpr he)
    obtain ⟨tid, htid, hmem⟩ := List.mem_flatMap.mp hmem
    obtain ⟨v, hv, rfl⟩ := List.mem_map.mp hmem
    have htid := List.mem_range.mp htid
    refine ⟨tid, htid, ?_⟩
    rw [← (hc.decoded tid htid v hv).2]
    exact hv
  · rintro tid htid v hv rfl
    exact (hc.decoded tid htid v hv).2

/-- Where a group is found in the bytes of a matrix. -/
lemma groupData_quantizeRows (hlen : ∀ grp, (quantizeGroup grp).length = f.groupBytes)
    {bytes : List UInt8} (h : quantizeRows f quantizeGroup bf16Data outDim inDim = some bytes)
    (hrow : row < outDim) (hg : g < f.numGroups inDim) {k : ℕ} (hk : k < f.groupBytes) :
    f.groupData (f.rowData (bytes.getD · 0) inDim row) g k =
      (quantizeGroup (groupOf f bf16Data inDim row g)).getD k 0 := by
  rw [quantizeRows] at h
  split at h
  · cases h
  obtain rfl := Option.some.inj h
  have hin : g * f.groupBytes + k < f.numGroups inDim * f.groupBytes := by
    have := Nat.mul_le_mul_right f.groupBytes (Nat.succ_le_of_lt hg)
    rw [Nat.succ_mul] at this
    omega
  have hrows : ∀ r < outDim, ((List.range (f.numGroups inDim)).flatMap fun g =>
      quantizeGroup (groupOf f bf16Data inDim r g)).length = f.numGroups inDim * f.groupBytes :=
    fun r _ => length_flatMap_range fun g _ => hlen _
  rw [Format.groupData, Format.rowData, Nat.mul_assoc]
  exact (getD_flatMap_range hrows hrow hin 0).trans
    (getD_flatMap_range (fun g _ => hlen _) hg hk 0)

/-- The element at a place of a group. -/
lemma groupOf_vals (hf : f.Even) (bf16Data : ℕ → ℕ) (row : ℕ) (he : e < inDim) :
    e % f.groupSize < (groupOf f bf16Data inDim row (e / f.groupSize)).count ∧
      (groupOf f bf16Data inDim row (e / f.groupSize)).vals (e % f.groupSize) =
        Bf16.value (bf16Data (row * inDim + e)) := by
  have hdiv := Nat.div_add_mod' e f.groupSize
  have hmod := Nat.mod_lt e hf.pos
  have hcount : e % f.groupSize < (groupOf f bf16Data inDim row (e / f.groupSize)).count :=
    lt_min hmod (by omega)
  refine ⟨hcount, ?_⟩
  rw [Group.vals, if_pos hcount]
  show Bf16.value (bf16Data (row * inDim + e / f.groupSize * f.groupSize + e % f.groupSize)) = _
  rw [Nat.add_assoc, hdiv]

/-- What the decoding rules make of the bytes of a matrix. -/
lemma decode_quantizeRows (hf : f.Even) (value : Group → ℕ → K)
    (hlen : ∀ grp, (quantizeGroup grp).length = f.groupBytes)
    (hvalues : ∀ (grp : Group) (gp : ℕ → UInt8), 0 < grp.count →
      (∀ k < f.groupBytes, gp k = (quantizeGroup grp).getD k 0) → ∀ b, 2 * b < f.groupSize →
        f.values gp b = (value grp (2 * b), value grp (2 * b + 1)))
    {bytes : List UInt8} (h : quantizeRows f quantizeGroup bf16Data outDim inDim = some bytes)
    (hrow : row < outDim) (he : e < inDim) :
    f.decode (f.rowData (bytes.getD · 0) inDim row) e =
      value (groupOf f bf16Data inDim row (e / f.groupSize)) (e % f.groupSize) := by
  have hg : e / f.groupSize < f.numGroups inDim :=
    (Nat.div_lt_iff_lt_mul hf.pos).mpr (he.trans_le (Format.le_numGroups_mul hf inDim))
  have hcount := (groupOf_vals hf bf16Data row he).1
  have hmod := Nat.mod_lt e hf.pos
  have hpar : e % f.groupSize % 2 = e % 2 :=
    Nat.mod_mod_of_dvd e (Nat.dvd_of_mod_eq_zero hf.even)
  have hvals := hvalues _ _ (Nat.zero_lt_of_lt hcount)
    (fun k hk => groupData_quantizeRows hlen h hrow hg hk) (e % f.groupSize / 2) (by omega)
  rw [Format.decode, hvals]
  simp only
  split_ifs with heven
  · congr 1
    omega
  · congr 1
    omega

/-- **A quantizer whose groups decode to `value`** returns bytes of which the kernels read it. -/
theorem quantizeRows_reads (hf : f.Even) (hs : f.Splits) (hbytes : 0 < f.groupBytes)
    (value : Group → ℕ → K) (hlen : ∀ grp, (quantizeGroup grp).length = f.groupBytes)
    (hvalues : ∀ (grp : Group) (gp : ℕ → UInt8), 0 < grp.count →
      (∀ k < f.groupBytes, gp k = (quantizeGroup grp).getD k 0) → ∀ b, 2 * b < f.groupSize →
        f.values gp b = (value grp (2 * b), value grp (2 * b + 1)))
    (bf16Data : ℕ → ℕ) (outDim : ℕ) (hin : 1 ≤ inDim) :
    ∃ bytes, quantizeRows f quantizeGroup bf16Data outDim inDim = some bytes ∧
      bytes.length = outDim * (f.numGroups inDim * f.groupBytes) ∧
      ∀ row < outDim, ∀ e < inDim, Reads f inDim (f.rowData (bytes.getD · 0) inDim row) e
        (value (groupOf f bf16Data inDim row (e / f.groupSize)) (e % f.groupSize)) := by
  have hgroups : 0 < f.numGroups inDim := Nat.div_pos (by omega) hf.pos
  have hchunk : ¬ f.numGroups inDim * f.groupBytes = 0 := (Nat.mul_pos hgroups hbytes).ne'
  refine ⟨_, if_neg hchunk,
    length_flatMap_range fun _ _ => length_flatMap_range fun _ _ => hlen _, fun row hrow e he => ?_⟩
  rw [← decode_quantizeRows hf value hlen hvalues (if_neg hchunk) hrow he]
  exact (covers hf (hs.split inDim) _).reads he

end Matrix

/-- **The quantizers are faithful**: of the bytes of a matrix the kernels read, for each element,
the value of the index (or the pair of indices) that was chosen for it with the stored scales of
its group; that value is within half a step and the rounding of the scale. -/
theorem quantizers_faithful (bf16Data : ℕ → ℕ) (outDim inDim : ℕ) (hin : 1 ≤ inDim) :
    (∃ bytes, quantizePcG32Q4 bf16Data outDim inDim = some bytes ∧
      bytes.length = outDim * (pcg32Rat.numGroups inDim * 20) ∧
      ∀ row < outDim, ∀ e < inDim,
        let grp := groupOf pcg32Rat bf16Data inDim row (e / 32)
        Reads pcg32Rat inDim (pcg32Rat.rowData (bytes.getD · 0) inDim row) e
            (grp.pcValue (e % 32)) ∧
          |Bf16.value (bf16Data (row * inDim + e)) - grp.pcValue (e % 32)| ≤
            max ((grp.mx - grp.mn) / 15) 1e-10 * (1 / 2 + 15 / 256)) ∧
    ∃ bytes, quantizeRnf4G128 bf16Data outDim inDim = some bytes ∧
      bytes.length = outDim * (rnf4Rat.numGroups inDim * 132) ∧
      ∀ row < outDim, ∀ e < inDim,
        let grp := groupOf rnf4Rat bf16Data inDim row (e / 128)
        let a := maxAbs grp.vals grp.count
        Reads rnf4Rat inDim (rnf4Rat.rowData (bytes.getD · 0) inDim row) e
            (grp.rnf4Value (e % 128)) ∧
          (1e-10 ≤ a →
            |Bf16.value (bf16Data (row * inDim + e)) - grp.rnf4Value (e % 128)| ≤
              (nf4HalfGap + 1 / 256) * max (nf4HalfGap * a) 1e-10) := by
  constructor
  · obtain ⟨bytes, hbytes, hlen, hreads⟩ := quantizeRows_reads (f := pcg32Rat) pcg32_even
      (pcg32_splits _) (Nat.succ_pos 19) Group.pcValue (fun grp => length_quantizePcGroup)
      (fun grp gp _ hgp b hb => values_quantizePcGroup hgp hb) bf16Data outDim hin
    refine ⟨bytes, hbytes, hlen, fun row hrow e he => ⟨hreads row hrow e he, ?_⟩⟩
    obtain ⟨hcount, hvals⟩ := groupOf_vals (f := pcg32Rat) pcg32_even bf16Data row he
    rw [← hvals]
    exact Group.pcGroup_error hcount
  · obtain ⟨bytes, hbytes, hlen, hreads⟩ := quantizeRows_reads (f := rnf4Rat) rnf4_even
      (rnf4_splits _ _) (Nat.succ_pos 131) Group.rnf4Value (fun grp => length_quantizeRnf4Group)
      (fun grp gp hcount hgp b hb => values_quantizeRnf4Group hcount hgp hb) bf16Data outDim hin
    refine ⟨bytes, hbytes, hlen, fun row hrow e he => ⟨hreads row hrow e he, fun ha => ?_⟩⟩
    obtain ⟨hcount, hvals⟩ := groupOf_vals (f := rnf4Rat) rnf4_even bf16Data row he
    rw [← hvals]
    exact Group.rnf4Group_error hcount ha

/-- A row of a whole group and one element. -/
theorem quantizers_faithful_partialGroup : 1 ≤ 33 ∧
    ∃ bytes, quantizePcG32Q4 (fun i => 0x3F80 + i) 1 33 = some bytes ∧
      Reads pcg32Rat 33 (pcg32Rat.rowData (bytes.getD · 0) 33 0) 32
        ((groupOf pcg32Rat (fun i => 0x3F80 + i) 33 0 1).pcValue 0) := by
  refine ⟨by decide, ?_⟩
  obtain ⟨bytes, hbytes, -, h⟩ := (quantizers_faithful (fun i => 0x3F80 + i) 1 33 (by decide)).1
  exact ⟨bytes, hbytes, (h 0 (by decide) 32 (by decide)).1⟩

end Braidinfer.Quant
